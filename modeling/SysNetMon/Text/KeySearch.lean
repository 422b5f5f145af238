import SysNetMon.Text.Decimal
import SysNetMon.Text.Regex

/-!
Reading one field of an object text by an unanchored pattern search, without
parsing the object: what the search finds when every string value is escaped.
-/

namespace KeySearch
open Bytes Decimal Regex

/-- `"key"\s*:\s*` followed by a pattern for the value. -/
def keyValue (key : Bytes) (value : Regex UInt8) : Regex UInt8 :=
  seq (lit (quote :: key ++ [quote]))
    (seq (star isspace) (seq (char fun ch => ch == colon) (seq (star isspace) value)))

/-- `"([^"]*)"` -/
def stringValue : Regex UInt8 :=
  seq (char fun ch => ch == quote)
    (seq (group (star fun ch => ch != quote)) (char fun ch => ch == quote))

/-- `(-?[0-9]+)` -/
def integerValue : Regex UInt8 := group (seq (opt (char fun ch => ch == 45)) (plus isdigit))

/-- `(-?[0-9]+(?:\.[0-9]+)?)` -/
def numberValue : Regex UInt8 :=
  group (seq (opt (char fun ch => ch == 45))
    (seq (plus isdigit) (opt (seq (char fun ch => ch == point) (plus isdigit)))))

/-- A lower-case letter or an underscore. -/
def isword (ch : UInt8) : Bool := ch == 95 || (97 ≤ ch && ch ≤ 122)

/-- A field name. -/
def Word (key : Bytes) : Prop := key ≠ [] ∧ ∀ ch ∈ key, isword ch = true

instance (key : Bytes) : Decidable (Word key) :=
  @instDecidableAnd _ _ inferInstance (List.decidableBAll _ key)

/-- A string body in which every quote and every backslash is part of an escape. -/
inductive Escaped : Bytes → Prop
  | nil : Escaped []
  | plain {ch s} : ch ≠ quote → ch ≠ backslash → Escaped s → Escaped (ch :: s)
  | pair {ch s} : Escaped s → Escaped (backslash :: ch :: s)

theorem Escaped.append {s t : Bytes} (first : Escaped s) (second : Escaped t) : Escaped (s ++ t) := by
  induction first with
  | nil => exact second
  | plain notQuote notBackslash _ ih => exact .plain notQuote notBackslash ih
  | pair _ ih => exact .pair ih

theorem isword_ne {ch d : UInt8} (word : isword ch = true) (other : isword d = false) : ch ≠ d := by
  rintro rfl
  rw [word] at other
  cases other

theorem Word.head {key : Bytes} (word : Word key) : ∃ ch cs, key = ch :: cs ∧ isword ch = true := by
  cases key with
  | nil => exact absurd rfl word.1
  | cons ch cs => exact ⟨ch, cs, rfl, word.2 ch List.mem_cons_self⟩

/-- A name followed by a quote can only be found in an escaped body as the whole body. -/
theorem Escaped.eq_of_append {e key r tail : Bytes} (escaped : Escaped e)
    (word : ∀ ch ∈ key, isword ch = true) (same : key ++ quote :: r = e ++ quote :: tail) :
    e = key ∧ r = tail := by
  induction escaped generalizing key with
  | nil =>
    cases key with
    | nil => exact ⟨rfl, (List.cons.inj same).2⟩
    | cons ch cs =>
      have head := (List.cons.inj same).1
      exact absurd head (isword_ne (word ch List.mem_cons_self) (by decide))
  | plain notQuote _ _ ih =>
    cases key with
    | nil => exact absurd (List.cons.inj same).1.symm notQuote
    | cons ch cs =>
      obtain ⟨head, rest⟩ := List.cons.inj same
      obtain ⟨body, last⟩ := ih (fun d member => word d (List.mem_cons_of_mem ch member)) rest
      exact ⟨by rw [head, body], last⟩
  | pair _ _ =>
    cases key with
    | nil => exact absurd (List.cons.inj same).1 (by decide)
    | cons ch cs =>
      exact absurd (List.cons.inj same).1 (isword_ne (word ch List.mem_cons_self) (by decide))

theorem Word.escaped {key : Bytes} (word : ∀ ch ∈ key, isword ch = true) : Escaped key := by
  induction key with
  | nil => exact .nil
  | cons ch cs ih =>
    have letter := word ch List.mem_cons_self
    exact .plain (isword_ne letter (by decide)) (isword_ne letter (by decide))
      (ih fun d member => word d (List.mem_cons_of_mem ch member))

/-- What follows a value in the text of an object. -/
def Closes (tail : Bytes) : Prop := ∃ ch rest, tail = ch :: rest ∧ (ch = comma ∨ ch = 125)

theorem Closes.takeWhile_isdigit {tail : Bytes} (closes : Closes tail) : tail.takeWhile isdigit = [] := by
  obtain ⟨ch, rest, rfl, rfl | rfl⟩ := closes <;> rfl

section Search
variable {key : Bytes} {value : Regex UInt8}

theorem runs_keyValue (s : Bytes) :
    runs (keyValue key value) s = if quote :: key ++ [quote] <+: s then
      runs (seq (star isspace) (seq (char fun ch => ch == colon) (seq (star isspace) value)))
        (s.drop (key.length + 2)) else [] := by
  rw [keyValue, runs_lit_seq]
  simp

/-- What starts with a byte that is not blank fails at a blank. -/
theorem fails_byte {byte : UInt8} (solid : isspace byte = false) (r : Regex UInt8) :
    Fails (seq (char fun ch => ch == byte) r) isspace := by
  refine fails_char_seq r fun ch space => ?_
  by_contra accepted
  simp only [Bool.not_eq_false, beq_iff_eq] at accepted
  rw [accepted, solid] at space
  cases space

theorem runs_keyValue_of_ne {ch : UInt8} (cs : Bytes) (notQuote : ch ≠ quote) :
    runs (keyValue key value) (ch :: cs) = [] := by
  rw [runs_keyValue, if_neg]
  intro before
  exact notQuote (List.cons_prefix_cons.mp before).1.symm

/-- At the opening quote of an escaped string no field starts: the string would
have to be the name, and a name is followed by a colon. -/
theorem runs_keyValue_string (word : Word key) {e tail : Bytes} (escaped : Escaped e) (closes : Closes tail) :
    runs (keyValue key value) (quote :: (e ++ quote :: tail)) = [] := by
  rw [runs_keyValue]
  split
  · rename_i before
    obtain ⟨r, same⟩ := before
    have inner : key ++ quote :: r = e ++ quote :: tail := by simpa using same
    obtain ⟨rfl, rfl⟩ := escaped.eq_of_append word.2 inner
    have rest : (quote :: (e ++ quote :: r)).drop (e.length + 2) = r := by simp
    obtain ⟨ch, cs, rfl, close⟩ := closes
    have notSpace : isspace ch = false := by rcases close with rfl | rfl <;> decide
    have notColon : (ch == colon) = false := by rcases close with rfl | rfl <;> decide
    rw [rest, runs_star_seq (fails_byte (by decide) _), List.dropWhile_cons_of_neg (by simp [notSpace]),
      runs_char_seq_cons, notColon]
    rfl
  · rfl

/-- No field starts at a quote that is followed by no letter. -/
theorem runs_keyValue_close (word : Word key) {ch : UInt8} (cs : Bytes) (noLetter : isword ch = false) :
    runs (keyValue key value) (quote :: ch :: cs) = [] := by
  rw [runs_keyValue, if_neg]
  intro before
  obtain ⟨first, rest, rfl, letter⟩ := word.head
  have second := (List.cons_prefix_cons.mp before).2
  exact isword_ne letter noLetter (List.cons_prefix_cons.mp second).1

theorem search_skip {ch : UInt8} (cs : Bytes) (notQuote : ch ≠ quote) :
    search (keyValue key value) (ch :: cs) = search (keyValue key value) cs :=
  search_cons_of_fails (runs_keyValue_of_ne cs notQuote)

theorem search_append_skip {s : Bytes} (plain : ∀ ch ∈ s, ch ≠ quote) (t : Bytes) :
    search (keyValue key value) (s ++ t) = search (keyValue key value) t := by
  refine search_append_of_fails (p := fun ch => ch != quote) ?_ (by simpa using plain) t
  intro ch cs other
  exact runs_keyValue_of_ne cs (by simpa using other)

theorem search_close (word : Word key) {tail : Bytes} (closes : Closes tail) :
    search (keyValue key value) (quote :: tail) = search (keyValue key value) tail := by
  obtain ⟨ch, rest, rfl, close⟩ := closes
  exact search_cons_of_fails (runs_keyValue_close word rest (by rcases close with rfl | rfl <;> decide))

/-- The search never starts a match inside an escaped string. -/
theorem search_escaped (word : Word key) {e tail : Bytes} (escaped : Escaped e) (closes : Closes tail) :
    search (keyValue key value) (e ++ quote :: tail) = search (keyValue key value) tail := by
  induction escaped with
  | nil => exact search_close word closes
  | plain notQuote _ _ ih => rw [List.cons_append, search_skip _ notQuote, ih]
  | @pair ch s inner ih =>
    rw [List.cons_append, List.cons_append, search_skip _ (by decide)]
    by_cases isQuote : ch = quote
    · rw [isQuote, search_cons_of_fails (runs_keyValue_string word inner closes), ih]
    · rw [search_skip _ isQuote, ih]

/-- The text of a value: an escaped string in quotes, or a token without quotes. -/
inductive Token : Bytes → Prop
  | quoted {e} : Escaped e → Token (quote :: (e ++ [quote]))
  | plain {s} : (∀ ch ∈ s, ch ≠ quote) → Token s

theorem search_token (word : Word key) {s tail : Bytes} (token : Token s) (closes : Closes tail) :
    search (keyValue key value) (s ++ tail) = search (keyValue key value) tail := by
  cases token with
  | @quoted e escaped =>
    have text : quote :: (e ++ [quote]) ++ tail = quote :: (e ++ quote :: tail) := by simp
    rw [text, search_cons_of_fails (runs_keyValue_string word escaped closes), search_escaped word escaped closes]
  | plain noQuote => exact search_append_skip noQuote tail

end Search

/-- One field, with `gap` between the colon and the value. -/
def field (gap : Bytes) (f : Bytes × Bytes) : Bytes := quote :: (f.1 ++ quote :: colon :: (gap ++ f.2))

/-- The fields that remain, each after a comma, and the closing brace. -/
def closing (gap : Bytes) : List (Bytes × Bytes) → Bytes
  | [] => [125]
  | f :: fs => comma :: (gap ++ (field gap f ++ closing gap fs))

/-- The text of an object, compact or with a gap after commas and colons. -/
def objectText (gap : Bytes) : List (Bytes × Bytes) → Bytes
  | [] => [123, 125]
  | f :: fs => 123 :: (field gap f ++ closing gap fs)

theorem closes_closing (gap : Bytes) (fs : List (Bytes × Bytes)) : Closes (closing gap fs) := by
  cases fs with
  | nil => exact ⟨125, [], rfl, Or.inr rfl⟩
  | cons f fs => exact ⟨comma, _, rfl, Or.inl rfl⟩

section Object
variable {key gap : Bytes} {value : Regex UInt8}

/-- A field of another name is passed over, whatever its value holds. -/
theorem search_field_of_ne (word : Word key) {name s : Bytes} (other : name ≠ key)
    (nameWord : ∀ ch ∈ name, isword ch = true) (token : Token s) (blank : ∀ ch ∈ gap, isspace ch = true)
    {tail : Bytes} (closes : Closes tail) :
    search (keyValue key value) (field gap (name, s) ++ tail) = search (keyValue key value) tail := by
  have gapPlain : ∀ ch ∈ colon :: gap, ch ≠ quote := by
    intro ch member
    rcases List.mem_cons.mp member with rfl | inGap
    · decide
    · rintro rfl
      exact absurd (blank _ inGap) (by decide)
  have namePlain : ∀ ch ∈ name, ch ≠ quote := fun ch member => isword_ne (nameWord ch member) (by decide)
  have start : runs (keyValue key value) (quote :: (name ++ quote :: (colon :: gap ++ (s ++ tail)))) = [] := by
    rw [runs_keyValue, if_neg]
    rintro ⟨r, same⟩
    have inner : key ++ quote :: r = name ++ quote :: (colon :: gap ++ (s ++ tail)) := by simpa using same
    exact other ((Word.escaped nameWord).eq_of_append word.2 inner).1
  have text : field gap (name, s) ++ tail = quote :: (name ++ quote :: (colon :: gap ++ (s ++ tail))) := by
    simp [field]
  rw [text, search_cons_of_fails start, search_append_skip namePlain, List.cons_append,
    search_cons_of_fails (runs_keyValue_close word _ (by decide)), ← List.cons_append,
    search_append_skip gapPlain, search_token word token closes]

/-- At the field itself the search returns what the value pattern matches first. -/
theorem search_field_self {s tail : Bytes} (blank : ∀ ch ∈ gap, isspace ch = true)
    (solid : ∃ ch cs, s = ch :: cs ∧ isspace ch = false) (fails : Fails value isspace)
    {m : List Bytes × Bytes} (found : (runs value (s ++ tail)).head? = some m) :
    search (keyValue key value) (field gap (key, s) ++ tail) = some m.1 := by
  have text : field gap (key, s) ++ tail = (quote :: key ++ [quote]) ++ (colon :: (gap ++ (s ++ tail))) := by
    simp [field]
  have rest : (gap ++ (s ++ tail)).dropWhile isspace = s ++ tail := by
    obtain ⟨ch, cs, rfl, notSpace⟩ := solid
    rw [List.dropWhile_append_of_pos blank, List.cons_append, List.dropWhile_cons_of_neg (by simp [notSpace])]
  refine search_of_head ?_
  rw [text, keyValue, runs_lit_seq_append, runs_star_seq (fails_byte (by decide) _),
    List.dropWhile_cons_of_neg (by decide), runs_char_seq_cons]
  simp only [beq_self_eq_true, if_true]
  rw [runs_star_seq fails, rest, found]

theorem search_closing (blank : ∀ ch ∈ gap, isspace ch = true) (f : Bytes × Bytes)
    (fs : List (Bytes × Bytes)) :
    search (keyValue key value) (closing gap (f :: fs)) =
      search (keyValue key value) (field gap f ++ closing gap fs) := by
  have plain : ∀ ch ∈ comma :: gap, ch ≠ quote := by
    intro ch member
    rcases List.mem_cons.mp member with rfl | inGap
    · decide
    · rintro rfl
      exact absurd (blank _ inGap) (by decide)
  rw [closing, ← List.cons_append, search_append_skip plain]

theorem search_fields (word : Word key) (blank : ∀ ch ∈ gap, isspace ch = true) {s : Bytes}
    (solid : ∃ ch cs, s = ch :: cs ∧ isspace ch = false) (fails : Fails value isspace)
    {before after : List (Bytes × Bytes)} {m : List Bytes × Bytes}
    (found : (runs value (s ++ closing gap after)).head? = some m)
    (wellFormed : ∀ f ∈ before, f.1 ≠ key ∧ (∀ ch ∈ f.1, isword ch = true) ∧ Token f.2) :
    search (keyValue key value) (closing gap (before ++ (key, s) :: after)) = some m.1 := by
  induction before with
  | nil =>
    rw [List.nil_append, search_closing blank]
    exact search_field_self blank solid fails found
  | cons f before ih =>
    obtain ⟨other, name, token⟩ := wellFormed f List.mem_cons_self
    rw [List.cons_append, search_closing blank,
      search_field_of_ne word other name token blank (closes_closing _ _)]
    exact ih fun g member => wellFormed g (List.mem_cons_of_mem f member)

/-- The pattern for a field finds the first field of that name and no other
place in the object, whatever the strings before it hold. -/
theorem search_objectText (word : Word key) (blank : ∀ ch ∈ gap, isspace ch = true) {s : Bytes}
    (solid : ∃ ch cs, s = ch :: cs ∧ isspace ch = false) (fails : Fails value isspace)
    {before after : List (Bytes × Bytes)} {m : List Bytes × Bytes}
    (found : (runs value (s ++ closing gap after)).head? = some m)
    (wellFormed : ∀ f ∈ before, f.1 ≠ key ∧ (∀ ch ∈ f.1, isword ch = true) ∧ Token f.2) :
    search (keyValue key value) (objectText gap (before ++ (key, s) :: after)) = some m.1 := by
  cases before with
  | nil =>
    rw [List.nil_append, objectText, search_skip _ (by decide)]
    exact search_field_self blank solid fails found
  | cons f before =>
    obtain ⟨other, name, token⟩ := wellFormed f List.mem_cons_self
    rw [List.cons_append, objectText, search_skip _ (by decide),
      search_field_of_ne word other name token blank (closes_closing _ _)]
    exact search_fields word blank solid fails found
      fun g member => wellFormed g (List.mem_cons_of_mem f member)

/-- Fields that a search tells apart: their names are distinct words, and no
value has a quote but those around an escaped string. -/
structure Separate (fields : List (Bytes × Bytes)) : Prop where
  word : ∀ name ∈ fields.map Prod.fst, Word name
  token : ∀ f ∈ fields, Token f.2
  distinct : (fields.map Prod.fst).Nodup

/-- In such an object the search for a name returns what the value pattern
captures of the value of that name. -/
theorem Separate.search {fields : List (Bytes × Bytes)} (separate : Separate fields)
    (blank : ∀ ch ∈ gap, isspace ch = true) {s : Bytes} (member : (key, s) ∈ fields)
    (solid : ∃ ch cs, s = ch :: cs ∧ isspace ch = false) (fails : Fails value isspace) (captures : List Bytes)
    (found : ∀ tail, Closes tail → ∃ rest, (runs value (s ++ tail)).head? = some (captures, rest)) :
    search (keyValue key value) (objectText gap fields) = some captures := by
  obtain ⟨before, after, rfl⟩ := List.append_of_mem member
  obtain ⟨rest, first⟩ := found (closing gap after) (closes_closing gap after)
  have others : ∀ f ∈ before, f.1 ≠ key := by
    intro f inBefore same
    have distinct := separate.distinct
    rw [List.map_append, List.nodup_append] at distinct
    exact distinct.2.2 f.1 (List.mem_map_of_mem inBefore) key (by simp) same
  exact search_objectText (separate.word key (List.mem_map_of_mem member)) blank solid fails first fun f inBefore =>
    ⟨others f inBefore, (separate.word f.1 (List.mem_map_of_mem (List.mem_append_left _ inBefore))).2,
      separate.token f (List.mem_append_left _ inBefore)⟩

end Object

theorem fails_stringValue : Fails stringValue isspace := fails_byte (by decide) _

/-- The string pattern captures up to the first quote of the body. -/
theorem head_runs_stringValue (e tail : Bytes) :
    ∃ rest, (runs stringValue (quote :: (e ++ quote :: tail))).head? =
      some ([e.takeWhile fun ch => ch != quote], rest) := by
  have fails : Fails (char fun ch : UInt8 => ch == quote) fun ch => ch != quote := by
    intro ch cs other
    have different : ch ≠ quote := by simpa using other
    simp [different]
  have stop : ∀ t : Bytes, (t ++ quote :: tail).takeWhile (fun ch => ch != quote) =
      t.takeWhile (fun ch => ch != quote) ∧
      ∃ rest, (t ++ quote :: tail).dropWhile (fun ch => ch != quote) = quote :: rest := by
    intro t
    induction t with
    | nil => exact ⟨by simp, tail, by simp⟩
    | cons c cs ih =>
      by_cases isQuote : c = quote
      · exact ⟨by simp [isQuote], cs ++ quote :: tail, by simp [isQuote]⟩
      · obtain ⟨taken, rest, dropped⟩ := ih
        exact ⟨by simp [isQuote, taken], rest, by simp [isQuote, dropped]⟩
  obtain ⟨taken, rest, dropped⟩ := stop e
  refine ⟨rest, ?_⟩
  rw [stringValue, runs_char_seq_cons]
  simp only [beq_self_eq_true, if_true]
  have one : runs (char fun ch : UInt8 => ch == quote) (quote :: rest) = [([], rest)] := by simp
  rw [runs_group_star_seq fails, taken, dropped, one]
  rfl

section Numerals
variable {negative : Bool} {ds tail : Bytes}

theorem fails_sign (r : Regex UInt8) (inner : Fails r isspace) :
    Fails (seq (opt (char fun ch : UInt8 => ch == 45)) r) isspace := by
  intro ch cs space
  have notMinus : ch ≠ 45 := by
    rintro rfl
    exact absurd space (by decide)
  simp [notMinus, inner ch cs space]

theorem fails_plus_digit : Fails (plus isdigit) isspace := by
  refine fails_char_seq _ fun ch space => ?_
  rw [isspace_iff] at space
  by_contra digit
  rw [Bool.not_eq_false, isdigit_iff] at digit
  omega

theorem fails_group {r : Regex UInt8} (inner : Fails r isspace) : Fails (group r) isspace := by
  intro ch cs space
  simp [inner ch cs space]

theorem fails_seq {r r' : Regex UInt8} (inner : Fails r isspace) : Fails (seq r r') isspace := by
  intro ch cs space
  simp [inner ch cs space]

theorem fails_integerValue : Fails integerValue isspace :=
  fails_group (fails_sign _ fails_plus_digit)

theorem fails_numberValue : Fails numberValue isspace :=
  fails_group (fails_sign _ (fails_seq fails_plus_digit))

/-- The optional sign takes a minus that is there and nothing else. -/
theorem head_runs_sign (digits : ∀ ch ∈ ds, isdigit ch = true) (nonempty : ds ≠ []) :
    (runs (opt (char fun ch : UInt8 => ch == 45)) (signed negative ds ++ tail)).head? = some ([], ds ++ tail) := by
  cases negative with
  | true => exact head_runs_opt (by simp [signed])
  | false =>
    cases ds with
    | nil => exact absurd rfl nonempty
    | cons c cs =>
      have notMinus : c ≠ 45 := by
        rintro rfl
        exact absurd (digits _ List.mem_cons_self) (by decide)
      exact head_runs_opt_of_fails (by simp [signed, notMinus])

theorem head_runs_integerValue (digits : ∀ ch ∈ ds, isdigit ch = true) (nonempty : ds ≠ [])
    (stop : tail.takeWhile isdigit = []) :
    (runs integerValue (signed negative ds ++ tail)).head? = some ([signed negative ds], tail) :=
  head_runs_group (head_runs_seq (head_runs_sign digits nonempty) (head_runs_plus digits nonempty stop))

theorem head_runs_numberValue {fs : Bytes} (digits : ∀ ch ∈ ds, isdigit ch = true) (nonempty : ds ≠ [])
    (fraction : ∀ ch ∈ fs, isdigit ch = true) (present : fs ≠ []) (stop : tail.takeWhile isdigit = []) :
    (runs numberValue (signed negative (ds ++ point :: fs) ++ tail)).head? =
      some ([signed negative (ds ++ point :: fs)], tail) := by
  have shape : signed negative (ds ++ point :: fs) ++ tail = signed negative ds ++ (point :: (fs ++ tail)) := by
    cases negative <;> simp [signed]
  have wholeStop : (point :: (fs ++ tail)).takeWhile isdigit = [] := by
    simp [show isdigit point = false by decide]
  have dot : (runs (char fun ch : UInt8 => ch == point) (point :: (fs ++ tail))).head? = some ([], fs ++ tail) := by
    simp
  have fractionRun := head_runs_opt (head_runs_seq dot (head_runs_plus fraction present stop))
  have whole := head_runs_seq (head_runs_plus digits nonempty wholeStop) fractionRun
  refine head_runs_group ?_
  rw [shape]
  exact head_runs_seq (head_runs_sign digits nonempty) whole

end Numerals

section ReadBack
variable {α β : Type*} {write mean : α → List β} {plain : α → Prop}

theorem flatMap_eq_of_plain (same : ∀ a, plain a → write a = mean a) {s : List α} (all : ∀ a ∈ s, plain a) :
    s.flatMap write = s.flatMap mean :=
  List.flatMap_congr fun a member => same a (all a member)

theorem length_flatMap_le (same : ∀ a, plain a → write a = mean a)
    (longer : ∀ a, ¬ plain a → (mean a).length < (write a).length) (s : List α) :
    (s.flatMap mean).length ≤ (s.flatMap write).length ∧
      ((s.flatMap write).length = (s.flatMap mean).length → ∀ a ∈ s, plain a) := by
  induction s with
  | nil => exact ⟨le_refl _, fun _ _ inNil => (nomatch inNil)⟩
  | cons a s ih =>
    obtain ⟨atMost, plains⟩ := ih
    simp only [List.flatMap_cons, List.length_append, List.forall_mem_cons]
    by_cases is : plain a
    · rw [same a is]
      exact ⟨by omega, fun equal => ⟨is, plains (by omega)⟩⟩
    · have more := longer a is
      exact ⟨by omega, fun equal => by omega⟩

/-- A writer that lengthens every character but the plain ones, read up to the
first `stop`: what is read is what was meant exactly when every character is plain. -/
theorem takeWhile_flatMap_eq_iff [DecidableEq β] {stop : β} (same : ∀ a, plain a → write a = mean a)
    (longer : ∀ a, ¬ plain a → (mean a).length < (write a).length)
    (mirrors : ∀ a, stop ∈ write a → stop ∈ mean a) (free : ∀ a, plain a → stop ∉ mean a) (s : List α) :
    (s.flatMap write).takeWhile (fun b => b != stop) = s.flatMap mean ↔ ∀ a ∈ s, plain a := by
  have whole (none : stop ∉ s.flatMap mean) :
      (s.flatMap write).takeWhile (fun b => b != stop) = s.flatMap write := by
    refine List.takeWhile_eq_self_iff.mpr fun b member => ?_
    rw [bne_iff_ne]
    rintro rfl
    obtain ⟨a, inS, inner⟩ := List.mem_flatMap.mp member
    exact none (List.mem_flatMap.mpr ⟨a, inS, mirrors a inner⟩)
  constructor
  · intro read
    have none : stop ∉ s.flatMap mean := by
      rw [← read]
      exact fun member => absurd (List.mem_takeWhile_imp member) (by simp)
    exact (length_flatMap_le same longer s).2 (congrArg List.length ((whole none).symm.trans read))
  · intro all
    have none : stop ∉ s.flatMap mean := by
      intro member
      obtain ⟨a, inS, inner⟩ := List.mem_flatMap.mp member
      exact free a (all a inS) inner
    rw [whole none, flatMap_eq_of_plain same all]

end ReadBack
end KeySearch
