import SysNetMon.Text.JsonDecoder

/-- What a hand-written JSON encoder puts together: strings that go through
its escaping function, whole numbers, numbers in hundredths, and nesting. -/
inductive Doc where
  | str (s : Bytes)
  | int (i : ℤ)
  | fixed (negative : Bool) (n : ℕ)
  | arr (items : List Doc)
  | obj (members : List (Bytes × Doc))

namespace Json
open Bytes Decimal

/-- What may stand after a value in compact text. -/
def Ends (r : Bytes) : Prop := ∀ ch ∈ r.head?, ch = comma ∨ ch = 93 ∨ ch = 125

theorem Ends.dropWhile {r : Bytes} (ends : Ends r) : r.dropWhile isdigit = r ∧ r.takeWhile isdigit = [] := by
  cases r with
  | nil => exact ⟨rfl, rfl⟩
  | cons c cs =>
    have stop : isdigit c = false := by
      rcases ends c rfl with rfl | rfl | rfl <;> decide
    simp [stop]

theorem Ends.fractionPart {r : Bytes} (ends : Ends r) : fractionPart r = ([], r) := by
  cases r with
  | nil => rfl
  | cons c cs =>
    have stop : c ≠ point := by
      rcases ends c rfl with rfl | rfl | rfl <;> decide
    simp [Json.fractionPart, stop]

theorem Ends.exponentPart {r : Bytes} (ends : Ends r) : exponentPart r = (0, r) := by
  cases r with
  | nil => rfl
  | cons c cs =>
    have stop : ¬ (c = 101 ∨ c = 69) := by
      rcases ends c rfl with rfl | rfl | rfl <;> decide
    simp [Json.exponentPart, stop]

theorem wholePart_digits (n : ℕ) {r : Bytes} (stop : r.takeWhile isdigit = []) :
    wholePart (digits n ++ r) = some (digits n, r) := by
  have rest : r.dropWhile isdigit = r := by
    have whole := @List.takeWhile_append_dropWhile _ isdigit r
    rwa [stop] at whole
  cases shape : digits n with
  | nil => exact absurd shape (digits_ne_nil n)
  | cons c cs =>
    by_cases zero : c = 48
    · have isZero : n = 0 := eq_zero_of_digits_head (by rw [shape, zero]; rfl)
      subst isZero
      have single : digits 0 = [48] := by decide
      rw [single, List.cons.injEq] at shape
      simp [← shape.1, ← shape.2, wholePart]
    · have all : ∀ d ∈ c :: cs, isdigit d = true := fun d member => isdigit_of_mem_digits (shape ▸ member)
      have tail : ∀ d ∈ cs, isdigit d = true := fun d member => all d (List.mem_cons_of_mem c member)
      rw [List.cons_append, wholePart, if_neg zero, if_pos (all c List.mem_cons_self),
        List.takeWhile_append_of_pos tail, List.dropWhile_append_of_pos tail, stop, rest, List.append_nil]

theorem number_signed (negative : Bool) (n : ℕ) (s r : Bytes) :
    number (signed negative (digits n ++ s) ++ r) =
      (unsignedNumber (digits n ++ (s ++ r))).map fun m => (if negative then -m.1 else m.1, m.2) := by
  cases negative with
  | true => simp [signed, number]
  | false =>
    cases shape : digits n with
    | nil => exact absurd shape (digits_ne_nil n)
    | cons c cs =>
      have notMinus : c ≠ 45 := by
        rintro rfl
        exact absurd (isdigit_of_mem_digits (shape ▸ List.mem_cons_self : (45 : UInt8) ∈ digits n)) (by decide)
      simp [signed, number, notMinus]

theorem number_printInt (i : ℤ) {r : Bytes} (ends : Ends r) : number (printInt i ++ r) = some ((i : ℚ), r) := by
  have read := number_signed (decide (i < 0)) i.natAbs [] r
  rw [List.append_nil, List.nil_append, unsignedNumber, wholePart_digits _ ends.dropWhile.2] at read
  rw [printInt, read]
  simp only [Option.map_some, ends.fractionPart, ends.exponentPart, readNat_digits]
  by_cases negative : i < 0
  · have value : ((i.natAbs : ℕ) : ℚ) = -(i : ℚ) := by
      rw [Nat.cast_natAbs, abs_of_neg negative, Int.cast_neg]
    simp [negative, value, readNat]
  · have value : ((i.natAbs : ℕ) : ℚ) = (i : ℚ) := by
      rw [Nat.cast_natAbs, abs_of_nonneg (not_lt.mp negative)]
    simp [negative, value, readNat]

theorem number_hundredths (negative : Bool) (n : ℕ) {r : Bytes} (ends : Ends r) :
    number (signed negative (hundredths n) ++ r) =
      some ((if negative then -1 else 1) * ((n : ℚ) / 100), r) := by
  have two : ∀ d ∈ twoDigits (n % 100), isdigit d = true := isdigit_twoDigits (Nat.mod_lt _ (by decide))
  have taken : (twoDigits (n % 100) ++ r).takeWhile isdigit = twoDigits (n % 100) := by
    rw [List.takeWhile_append_of_pos two, ends.dropWhile.2, List.append_nil]
  have dropped : (twoDigits (n % 100) ++ r).dropWhile isdigit = r := by
    rw [List.dropWhile_append_of_pos two, ends.dropWhile.1]
  have stop : (point :: twoDigits (n % 100) ++ r).takeWhile isdigit = [] := by
    simp [show isdigit point = false by decide]
  have fraction : fractionPart (point :: twoDigits (n % 100) ++ r) = (twoDigits (n % 100), r) := by
    rw [List.cons_append, Json.fractionPart, taken, dropped, if_pos ⟨rfl, by simp [twoDigits]⟩]
  rw [hundredths, number_signed, unsignedNumber, wholePart_digits _ stop]
  simp only [Option.map_some, fraction, ends.exponentPart, readNat_digits,
    readNat_twoDigits (Nat.mod_lt n (by decide : 100 > 0))]
  rw [split_hundreds n]
  simp only [twoDigits, List.length_cons, List.length_nil]
  cases negative <;> simp <;> ring

theorem signed_head (negative : Bool) (n : ℕ) (s r : Bytes) :
    ∃ c cs, signed negative (digits n ++ s) ++ r = c :: cs ∧ (isdigit c = true ∨ c = 45) := by
  cases negative with
  | true => exact ⟨45, digits n ++ s ++ r, rfl, Or.inr rfl⟩
  | false =>
    cases shape : digits n with
    | nil => exact absurd shape (digits_ne_nil n)
    | cons c cs => exact ⟨c, cs ++ s ++ r, rfl, Or.inl (isdigit_of_mem_digits (shape ▸ List.mem_cons_self))⟩

/-- A number never looks like a keyword, a string or a bracket. -/
theorem value_number {fuel : ℕ} {c : UInt8} {cs : Bytes} (head : isdigit c = true ∨ c = 45) :
    value (fuel + 1) (c :: cs) = (number (c :: cs)).map fun m => (num m.1, m.2) := by
  have apart : c ≠ quote ∧ c ≠ 91 ∧ c ≠ 123 ∧ c ≠ 110 ∧ c ≠ 116 ∧ c ≠ 102 := by
    rcases head with digit | rfl
    · refine ⟨?_, ?_, ?_, ?_, ?_, ?_⟩ <;> rintro rfl <;> exact absurd digit (by decide)
    · decide
  obtain ⟨notQuote, notArray, notObject, notN, notT, notF⟩ := apart
  have noKeyword : keyword (c :: cs) = none := by
    have different (w : Bytes) (d : UInt8) (other : c ≠ d) : ¬ (d :: w <+: c :: cs) :=
      fun before => other (List.cons_prefix_cons.mp before).1.symm
    have noNull : ¬ ascii "null" <+: c :: cs := different (ascii "ull") 110 notN
    have noTrue : ¬ ascii "true" <+: c :: cs := different (ascii "rue") 116 notT
    have noFalse : ¬ ascii "false" <+: c :: cs := different (ascii "alse") 102 notF
    rw [keyword, if_neg noNull, if_neg noTrue, if_neg noFalse]
  rw [value.eq_def]
  simp only [notQuote, notArray, notObject, if_false, noKeyword]

section Writer
variable (esc : Bytes → Bytes)

mutual

/-- The compact text of a document, with `esc` for every string. -/
def render : Doc → Bytes
  | .str s => quote :: esc s ++ [quote]
  | .int i => printInt i
  | .fixed negative n => signed negative (hundredths n)
  | .arr items => 91 :: renderItems items ++ [93]
  | .obj ms => 123 :: renderMembers ms ++ [125]

def renderItems : List Doc → Bytes
  | [] => []
  | [d] => render d
  | d :: d' :: ds => render d ++ comma :: renderItems (d' :: ds)

def renderMembers : List (Bytes × Doc) → Bytes
  | [] => []
  | [(name, d)] => quote :: esc name ++ quote :: colon :: render d
  | (name, d) :: m :: ms => quote :: esc name ++ quote :: colon :: render d ++ comma :: renderMembers (m :: ms)

end

mutual

/-- The value a document stands for. -/
def meaning : Doc → Json
  | .str s => str s
  | .int i => num i
  | .fixed negative n => num ((if negative then -1 else 1) * ((n : ℚ) / 100))
  | .arr items => arr (meaningItems items)
  | .obj ms => obj (meaningMembers ms)

def meaningItems : List Doc → List Json
  | [] => []
  | d :: ds => meaning d :: meaningItems ds

def meaningMembers : List (Bytes × Doc) → List (Bytes × Json)
  | [] => []
  | (name, d) :: ms => (name, meaning d) :: meaningMembers ms

end

mutual

/-- Every string of a document, names included. -/
def strings : Doc → List Bytes
  | .str s => [s]
  | .int _ => []
  | .fixed _ _ => []
  | .arr items => stringsItems items
  | .obj ms => stringsMembers ms

def stringsItems : List Doc → List Bytes
  | [] => []
  | d :: ds => strings d ++ stringsItems ds

def stringsMembers : List (Bytes × Doc) → List Bytes
  | [] => []
  | (name, d) :: ms => name :: strings d ++ stringsMembers ms

end

mutual

/-- Enough fuel to read a document back. -/
def size : Doc → ℕ
  | .arr items => 1 + sizeItems items
  | .obj ms => 1 + sizeMembers ms
  | _ => 1

def sizeItems : List Doc → ℕ
  | [] => 0
  | d :: ds => 1 + size d + sizeItems ds

def sizeMembers : List (Bytes × Doc) → ℕ
  | [] => 0
  | (_, d) :: ms => 1 + size d + sizeMembers ms

end

theorem render_head (d : Doc) : ∃ c cs, render esc d = c :: cs ∧ isBlank c = false ∧ c ≠ 93 := by
  have number (negative : Bool) (n : ℕ) (s : Bytes) :
      ∃ c cs, signed negative (digits n ++ s) = c :: cs ∧ isBlank c = false ∧ c ≠ 93 := by
    obtain ⟨c, cs, shape, head⟩ := signed_head negative n s []
    rw [List.append_nil] at shape
    refine ⟨c, cs, shape, ?_⟩
    rcases head with digit | rfl
    · rw [isdigit_iff] at digit
      simp only [isBlank, Bool.or_eq_false_iff, beq_eq_false_iff_ne, ne_eq, ← UInt8.toNat_inj]
      refine ⟨⟨⟨⟨?_, ?_⟩, ?_⟩, ?_⟩, ?_⟩ <;> simp <;> omega
    · decide
  cases d with
  | str s => exact ⟨quote, esc s ++ [quote], by simp [render], by decide, by decide⟩
  | int i => simpa [render, printInt] using number (decide (i < 0)) i.natAbs []
  | fixed negative n => simpa [render, hundredths] using number negative (n / 100) (point :: twoDigits (n % 100))
  | arr items => exact ⟨91, renderItems esc items ++ [93], by simp [render], by decide, by decide⟩
  | obj ms => exact ⟨123, renderMembers esc ms ++ [125], by simp [render], by decide, by decide⟩

theorem skipBlanks_of_head {c : UInt8} (cs : Bytes) (solid : isBlank c = false) :
    skipBlanks (c :: cs) = c :: cs := by
  simp [skipBlanks, solid]

theorem skipBlanks_render (d : Doc) (r : Bytes) : skipBlanks (render esc d ++ r) = render esc d ++ r := by
  obtain ⟨c, cs, shape, solid, _⟩ := render_head esc d
  rw [shape, List.cons_append, skipBlanks_of_head _ solid]

theorem renderItems_cons (d : Doc) (ds : List Doc) :
    renderItems esc (d :: ds) = render esc d ++ (if ds = [] then [] else comma :: renderItems esc ds) := by
  cases ds with
  | nil => simp [renderItems]
  | cons d' ds => simp [renderItems]

theorem renderMembers_cons (name : Bytes) (d : Doc) (ms : List (Bytes × Doc)) :
    renderMembers esc ((name, d) :: ms) = quote :: esc name ++ quote :: colon :: render esc d ++
      (if ms = [] then [] else comma :: renderMembers esc ms) := by
  cases ms with
  | nil => simp [renderMembers]
  | cons m ms => simp [renderMembers]

section Closed
variable {esc} {P : Bytes → Prop} (append : ∀ {s t}, P s → P t → P (s ++ t)) (printable : ∀ {s}, Printable s → P s)
include append printable

mutual

/-- A property that printable text has and that joining keeps holds of the text
of a document, if it holds of every escaped string in it. -/
theorem render_closed : ∀ d : Doc, (∀ s ∈ strings d, P (esc s)) → P (render esc d)
  | .str s, inner => by
    have text : render esc (.str s) = [quote] ++ (esc s ++ [quote]) := by simp [render]
    rw [text]
    exact append (printable (by decide)) (append (inner s (by simp [strings])) (printable (by decide)))
  | .int i, _ => printable (printable_signed (printable_digits _) _)
  | .fixed negative n, _ => printable (printable_signed (printable_hundredths n) negative)
  | .arr items, inner => by
    have text : render esc (.arr items) = [91] ++ (renderItems esc items ++ [93]) := by simp [render]
    rw [text]
    exact append (printable (by decide)) (append (renderItems_closed items inner) (printable (by decide)))
  | .obj ms, inner => by
    have text : render esc (.obj ms) = [123] ++ (renderMembers esc ms ++ [125]) := by simp [render]
    rw [text]
    exact append (printable (by decide)) (append (renderMembers_closed ms inner) (printable (by decide)))

theorem renderItems_closed : ∀ ds : List Doc, (∀ s ∈ stringsItems ds, P (esc s)) → P (renderItems esc ds)
  | [], _ => printable (s := []) (by decide)
  | d :: ds, inner => by
    simp only [stringsItems, List.mem_append] at inner
    have first := render_closed d fun s member => inner s (Or.inl member)
    have others := renderItems_closed ds fun s member => inner s (Or.inr member)
    rw [renderItems_cons]
    split
    · rwa [List.append_nil]
    · exact append first (append (s := [comma]) (printable (by decide)) others)

theorem renderMembers_closed : ∀ ms : List (Bytes × Doc), (∀ s ∈ stringsMembers ms, P (esc s)) →
    P (renderMembers esc ms)
  | [], _ => printable (s := []) (by decide)
  | (name, d) :: ms, inner => by
    simp only [stringsMembers, List.mem_append, List.mem_cons] at inner
    have key := inner name (Or.inl (Or.inl rfl))
    have first := render_closed d fun s member => inner s (Or.inl (Or.inr member))
    have others := renderMembers_closed ms fun s member => inner s (Or.inr member)
    have text : renderMembers esc ((name, d) :: ms) = [quote] ++ (esc name ++ ([quote, colon] ++ (render esc d ++
        if ms = [] then [] else [comma] ++ renderMembers esc ms))) := by
      rw [renderMembers_cons]
      simp
    rw [text]
    refine append (printable (by decide)) (append key (append (printable (by decide)) (append first ?_)))
    split
    · exact printable (by decide)
    · exact append (printable (by decide)) others

end

end Closed

end Writer

section ReadBack
variable {esc : Bytes → Bytes} {clean : Bytes → Prop} [DecidablePred clean]

theorem ends_comma (r : Bytes) : Ends (comma :: r) := by rintro _ ⟨⟩; exact Or.inl rfl
theorem ends_bracket (r : Bytes) : Ends (93 :: r) := by rintro _ ⟨⟩; exact Or.inr (Or.inl rfl)
theorem ends_brace (r : Bytes) : Ends (125 :: r) := by rintro _ ⟨⟩; exact Or.inr (Or.inr rfl)

theorem eat_self (ch : UInt8) (r : Bytes) : eat ch (ch :: r) = some r := by simp [eat]

theorem eat_other {ch c : UInt8} (other : c ≠ ch) (r : Bytes) : eat ch (c :: r) = none := by simp [eat, other]

mutual

/-- The strict decoder reads the text of a document back exactly when every
string in it went through `esc` unharmed; otherwise it refuses the text. -/
theorem value_render (reads : ∀ s r, stringBody (esc s ++ quote :: r) = if clean s then some (s, r) else none) :
    ∀ (d : Doc) (fuel : ℕ) (r : Bytes), size d ≤ fuel → Ends r →
      value fuel (render esc d ++ r) = if ∀ s ∈ strings d, clean s then some (meaning d, r) else none
  | .str s, fuel + 1, r, _, _ => by
    have body := reads s r
    by_cases ok : clean s <;> simp_all [render, value, strings, meaning]
  | .int i, fuel + 1, r, _, ends => by
    obtain ⟨c, cs, shape, head⟩ : ∃ c cs, printInt i ++ r = c :: cs ∧ (isdigit c = true ∨ c = 45) := by
      simpa [printInt] using signed_head (decide (i < 0)) i.natAbs [] r
    rw [render, shape, value_number head, ← shape, number_printInt i ends]
    simp [strings, meaning]
  | .fixed negative n, fuel + 1, r, _, ends => by
    obtain ⟨c, cs, shape, head⟩ :
        ∃ c cs, signed negative (hundredths n) ++ r = c :: cs ∧ (isdigit c = true ∨ c = 45) :=
      signed_head _ _ _ r
    rw [render, shape, value_number head, ← shape, number_hundredths negative n ends]
    simp [strings, meaning]
  | .arr [], fuel + 1, r, _, _ => by
    simp [render, renderItems, value, skipBlanks_of_head r (by decide : isBlank 93 = false), eat_self,
      strings, stringsItems, meaning, meaningItems, quote]
  | .arr (d :: ds), fuel + 1, r, enough, _ => by
    have inner := elements_render reads (d :: ds) fuel r (by simp) (by simp only [size] at enough; omega)
    obtain ⟨c, cs, shape, solid, notClose⟩ := render_head esc d
    have start : renderItems esc (d :: ds) ++ 93 :: r = c :: (cs ++
        ((if ds = [] then [] else comma :: renderItems esc ds) ++ 93 :: r)) := by
      rw [renderItems_cons, shape]
      simp
    have text : render esc (.arr (d :: ds)) ++ r = 91 :: (renderItems esc (d :: ds) ++ 93 :: r) := by
      simp [render]
    have skip : skipBlanks (renderItems esc (d :: ds) ++ 93 :: r) = renderItems esc (d :: ds) ++ 93 :: r := by
      rw [start, skipBlanks_of_head _ solid]
    have noClose : eat 93 (renderItems esc (d :: ds) ++ 93 :: r) = none := by
      rw [start, eat_other notClose]
    rw [text, value.eq_def]
    simp only [show (91 : UInt8) ≠ quote by decide, if_false, if_true, skip, noClose, inner]
    by_cases ok : ∀ s ∈ stringsItems (d :: ds), clean s
    · rw [if_pos ok, if_pos (show ∀ s ∈ strings (.arr (d :: ds)), clean s from ok)]
      rfl
    · rw [if_neg ok, if_neg (show ¬ ∀ s ∈ strings (.arr (d :: ds)), clean s from ok)]
      rfl
  | .obj [], fuel + 1, r, _, _ => by
    simp [render, renderMembers, value, skipBlanks_of_head r (by decide : isBlank 125 = false), eat_self,
      strings, stringsMembers, meaning, meaningMembers, quote]
  | .obj ((name, d) :: ms), fuel + 1, r, enough, _ => by
    have inner := members_render reads ((name, d) :: ms) fuel r (by simp) (by simp only [size] at enough; omega)
    have start : ∃ cs, renderMembers esc ((name, d) :: ms) ++ 125 :: r = quote :: cs := by
      rw [renderMembers_cons]
      exact ⟨_, rfl⟩
    have text : render esc (.obj ((name, d) :: ms)) ++ r =
        123 :: (renderMembers esc ((name, d) :: ms) ++ 125 :: r) := by
      simp [render]
    obtain ⟨cs, start⟩ := start
    have skip : skipBlanks (renderMembers esc ((name, d) :: ms) ++ 125 :: r) =
        renderMembers esc ((name, d) :: ms) ++ 125 :: r := by
      rw [start, skipBlanks_of_head _ (by decide)]
    have noClose : eat 125 (renderMembers esc ((name, d) :: ms) ++ 125 :: r) = none := by
      rw [start, eat_other (by decide)]
    rw [text, value.eq_def]
    simp only [show (123 : UInt8) ≠ quote by decide, show (123 : UInt8) ≠ 91 by decide, if_false, if_true,
      skip, noClose, inner]
    by_cases ok : ∀ s ∈ stringsMembers ((name, d) :: ms), clean s
    · rw [if_pos ok, if_pos (show ∀ s ∈ strings (.obj ((name, d) :: ms)), clean s from ok)]
      rfl
    · rw [if_neg ok, if_neg (show ¬ ∀ s ∈ strings (.obj ((name, d) :: ms)), clean s from ok)]
      rfl
  | d, 0, _, enough, _ => by cases d <;> simp [size] at enough

theorem elements_render (reads : ∀ s r, stringBody (esc s ++ quote :: r) = if clean s then some (s, r) else none) :
    ∀ (ds : List Doc) (fuel : ℕ) (r : Bytes), ds ≠ [] → sizeItems ds ≤ fuel →
      elements fuel (renderItems esc ds ++ 93 :: r) =
        if ∀ s ∈ stringsItems ds, clean s then some (meaningItems ds, r) else none
  | [], _, _, nonempty, _ => absurd rfl nonempty
  | d :: ds, 0, _, _, enough => by simp [sizeItems] at enough
  | [d], fuel + 1, r, _, enough => by
    have first := value_render reads d fuel (93 :: r) (by simp only [sizeItems] at enough; omega) (ends_bracket r)
    rw [renderItems, elements, first]
    by_cases ok : ∀ s ∈ strings d, clean s
    · rw [if_pos ok, if_pos (by simpa [stringsItems] using ok)]
      simp [skipBlanks_of_head r (by decide : isBlank 93 = false), eat_self, eat_other,
        show (93 : UInt8) ≠ comma by decide, meaningItems]
    · rw [if_neg ok, if_neg (by simpa [stringsItems] using ok)]
  | d :: d' :: ds, fuel + 1, r, _, enough => by
    have first := value_render reads d fuel (comma :: (renderItems esc (d' :: ds) ++ 93 :: r))
      (by simp only [sizeItems] at enough; omega) (ends_comma _)
    have others := elements_render reads (d' :: ds) fuel r (by simp) (by simp only [sizeItems] at enough ⊢; omega)
    have skip : skipBlanks (renderItems esc (d' :: ds) ++ 93 :: r) = renderItems esc (d' :: ds) ++ 93 :: r := by
      rw [renderItems_cons, List.append_assoc, skipBlanks_render]
    have text : renderItems esc (d :: d' :: ds) ++ 93 :: r =
        render esc d ++ comma :: (renderItems esc (d' :: ds) ++ 93 :: r) := by
      simp [renderItems]
    have both : (∀ s ∈ stringsItems (d :: d' :: ds), clean s) ↔
        (∀ s ∈ strings d, clean s) ∧ ∀ s ∈ stringsItems (d' :: ds), clean s := by
      rw [stringsItems, List.forall_mem_append]
    rw [text, elements, first]
    by_cases ok : ∀ s ∈ strings d, clean s
    · rw [if_pos ok]
      simp only [skipBlanks_of_head _ (by decide : isBlank comma = false), eat_self, skip, others]
      by_cases rest : ∀ s ∈ stringsItems (d' :: ds), clean s
      · rw [if_pos rest, if_pos (both.mpr ⟨ok, rest⟩)]
        rfl
      · rw [if_neg rest, if_neg fun all => rest (both.mp all).2]
        rfl
    · rw [if_neg ok, if_neg fun all => ok (both.mp all).1]

theorem members_render (reads : ∀ s r, stringBody (esc s ++ quote :: r) = if clean s then some (s, r) else none) :
    ∀ (ms : List (Bytes × Doc)) (fuel : ℕ) (r : Bytes), ms ≠ [] → sizeMembers ms ≤ fuel →
      members fuel (renderMembers esc ms ++ 125 :: r) =
        if ∀ s ∈ stringsMembers ms, clean s then some (meaningMembers ms, r) else none
  | [], _, _, nonempty, _ => absurd rfl nonempty
  | m :: ms, 0, _, _, enough => by
    obtain ⟨name, d⟩ := m
    simp [sizeMembers] at enough
  | (name, d) :: ms, fuel + 1, r, _, enough => by
    let tail := (if ms = [] then [] else comma :: renderMembers esc ms) ++ 125 :: r
    have tailEnds : Ends tail := by
      by_cases last : ms = []
      · simpa [tail, last] using ends_brace r
      · simpa [tail, last] using ends_comma _
    have text : renderMembers esc ((name, d) :: ms) ++ 125 :: r =
        quote :: (esc name ++ quote :: (colon :: (render esc d ++ tail))) := by
      simp [renderMembers_cons, tail]
    have first := value_render reads d fuel tail (by simp only [sizeMembers] at enough; omega) tailEnds
    have all : (∀ s ∈ stringsMembers ((name, d) :: ms), clean s) ↔
        clean name ∧ (∀ s ∈ strings d, clean s) ∧ ∀ s ∈ stringsMembers ms, clean s := by
      rw [stringsMembers, List.forall_mem_append, List.forall_mem_cons, and_assoc]
    rw [text, members, eat_self, Option.bind_some, reads]
    by_cases nameOk : clean name
    · simp only [if_pos nameOk, skipBlanks_of_head _ (by decide : isBlank colon = false), eat_self,
        skipBlanks_render, first]
      by_cases ok : ∀ s ∈ strings d, clean s
      · rw [if_pos ok]
        cases ms with
        | nil =>
          rw [if_pos (all.mpr ⟨nameOk, ok, by simp [stringsMembers]⟩)]
          simp [tail, skipBlanks_of_head r (by decide : isBlank 125 = false), eat_self, eat_other,
            show (125 : UInt8) ≠ comma by decide, meaningMembers]
        | cons m ms =>
          obtain ⟨name', d'⟩ := m
          have others := members_render reads ((name', d') :: ms) fuel r (by simp)
            (by simp only [sizeMembers] at enough ⊢; omega)
          have skip : skipBlanks (renderMembers esc ((name', d') :: ms) ++ 125 :: r) =
              renderMembers esc ((name', d') :: ms) ++ 125 :: r := by
            rw [renderMembers_cons]
            exact skipBlanks_of_head _ (by decide)
          simp only [tail, reduceCtorEq, if_false, List.cons_append,
            skipBlanks_of_head _ (by decide : isBlank comma = false), eat_self, skip, others]
          by_cases rest : ∀ s ∈ stringsMembers ((name', d') :: ms), clean s
          · rw [if_pos rest, if_pos (all.mpr ⟨nameOk, ok, rest⟩)]
            rfl
          · rw [if_neg rest, if_neg fun every => rest (all.mp every).2.2]
            rfl
      · rw [if_neg ok, if_neg fun every => ok (all.mp every).2.1]
    · rw [if_neg nameOk, if_neg fun every => nameOk (all.mp every).1]

end

mutual

theorem size_le_length : ∀ d : Doc, size d ≤ (render esc d).length
  | .str s => by simp [size, render]
  | .int i => by
    obtain ⟨c, cs, shape, _⟩ := render_head esc (.int i)
    simp [size, shape]
  | .fixed negative n => by
    obtain ⟨c, cs, shape, _⟩ := render_head esc (.fixed negative n)
    simp [size, shape]
  | .arr items => by
    have inner := sizeItems_le_length items
    simp only [size, render, List.length_append, List.length_cons, List.length_nil]
    omega
  | .obj ms => by
    have inner := sizeMembers_le_length ms
    simp only [size, render, List.length_append, List.length_cons, List.length_nil]
    omega

theorem sizeItems_le_length : ∀ ds : List Doc, sizeItems ds ≤ (renderItems esc ds).length + 1
  | [] => by simp [sizeItems]
  | [d] => by
    have first := size_le_length d
    simp only [sizeItems, renderItems]
    omega
  | d :: d' :: ds => by
    have first := size_le_length d
    have others := sizeItems_le_length (d' :: ds)
    rw [sizeItems, renderItems]
    simp only [List.length_append, List.length_cons]
    omega

theorem sizeMembers_le_length : ∀ ms : List (Bytes × Doc), sizeMembers ms ≤ (renderMembers esc ms).length + 1
  | [] => by simp [sizeMembers]
  | (name, d) :: ms => by
    have first := size_le_length d
    have others := sizeMembers_le_length ms
    rw [sizeMembers, renderMembers_cons]
    by_cases last : ms = []
    · simp only [last, sizeMembers, List.length_append, List.length_cons]
      omega
    · simp only [last, if_false, List.length_append, List.length_cons]
      omega

end

/-- Decoding the compact text of a document. -/
theorem loads_render (reads : ∀ s r, stringBody (esc s ++ quote :: r) = if clean s then some (s, r) else none)
    (d : Doc) : loads (render esc d) = if ∀ s ∈ strings d, clean s then some (meaning d) else none := by
  have enough := @size_le_length esc d
  have ends : Ends [] := by rintro _ ⟨⟩
  have read := value_render reads d ((render esc d).length + 1) [] (by omega) ends
  have skip := skipBlanks_render esc d []
  rw [List.append_nil] at read skip
  rw [loads, skip, read]
  by_cases ok : ∀ s ∈ strings d, clean s
  · rw [if_pos ok, if_pos ok]
    rfl
  · rw [if_neg ok, if_neg ok]

end ReadBack

end Json
