import SysNetMon.Text.JsonDecoder
import SysNetMon.Text.KeySearch

/-!
Python strings and `json.dumps` of a flat `dict` of them, with its defaults.
-/

/-- A Python `str`: code points, lone surrogates included. -/
abbrev PyStr := List (Fin 0x110000)

namespace PyStr
open Bytes KeySearch

/-- The UTF-8 bytes; a lone surrogate has the same bit layout. -/
def encode (s : PyStr) : Bytes := s.flatMap fun c => Json.encodePoint c.val

def hexLower (d : ℕ) : UInt8 := if d < 10 then UInt8.ofNat (48 + d) else UInt8.ofNat (87 + d)

/-- `\uXXXX` -/
def unicodeEscape (n : ℕ) : Bytes :=
  [backslash, 117, hexLower (n / 0x1000 % 0x10), hexLower (n / 0x100 % 0x10), hexLower (n / 0x10 % 0x10),
    hexLower (n % 0x10)]

/-- The escapes of two characters, by the second one. -/
def shortEscape (n : ℕ) : Option UInt8 :=
  if n = 34 then some quote
  else if n = 92 then some backslash
  else if n = 10 then some 110
  else if n = 13 then some 114
  else if n = 9 then some 116
  else if n = 12 then some 102
  else if n = 8 then some 98
  else none

/-- `json.dumps` on one character, with `ensure_ascii`. -/
def dumps_char (c : Fin 0x110000) : Bytes :=
  match shortEscape c with
  | some e => [backslash, e]
  | none =>
    if 32 ≤ c.val ∧ c.val < 127 then [UInt8.ofNat c]
    else if c.val < 0x10000 then unicodeEscape c
    else unicodeEscape (0xD800 + (c - 0x10000) / 0x400) ++ unicodeEscape (0xDC00 + (c - 0x10000) % 0x400)

def dumps_str (s : PyStr) : Bytes := s.flatMap dumps_char

/-- `json.dumps` of a `dict` with string values and ASCII words for keys. -/
def dumps : List (String × PyStr) → Bytes
  | [] => ascii "\x7b\x7d"
  | f :: fs => ascii "\x7b" ++ member f ++ fs.flatMap (fun g => ascii ", " ++ member g) ++ ascii "\x7d"
where
  member (f : String × PyStr) : Bytes := ascii "\"" ++ ascii f.1 ++ ascii "\": \"" ++ dumps_str f.2 ++ ascii "\""

/-- A character that stands for itself on the wire. -/
def PlainChar (c : Fin 0x110000) : Prop := 32 ≤ c.val ∧ c.val < 127 ∧ c.val ≠ 34 ∧ c.val ≠ 92

instance (c : Fin 0x110000) : Decidable (PlainChar c) := inferInstanceAs (Decidable (_ ∧ _))

/-- Printable ASCII other than the quote and the backslash. -/
def Plain (s : PyStr) : Prop := ∀ c ∈ s, PlainChar c

instance (s : PyStr) : Decidable (Plain s) := List.decidableBAll PlainChar s

theorem hexLower_spec {d : ℕ} (bound : d < 16) :
    hexLower d ≠ quote ∧ hexLower d ≠ backslash ∧ 32 ≤ (hexLower d).toNat ∧ (hexLower d).toNat < 127 := by
  interval_cases d <;> decide

theorem escaped_unicodeEscape (n : ℕ) : Escaped (unicodeEscape n) := by
  have digit (d : ℕ) := hexLower_spec (Nat.mod_lt d (by decide : 0 < 0x10))
  exact .pair (.plain (digit _).1 (digit _).2.1 (.plain (digit _).1 (digit _).2.1
    (.plain (digit _).1 (digit _).2.1 (.plain (digit _).1 (digit _).2.1 .nil))))

theorem printable_unicodeEscape (n : ℕ) : Printable (unicodeEscape n) := by
  have digit (d : ℕ) := (hexLower_spec (Nat.mod_lt d (by decide : 0 < 0x10))).2.2
  simp only [Printable, unicodeEscape, List.forall_mem_cons]
  exact ⟨by decide, by decide, digit _, digit _, digit _, digit _, List.forall_mem_nil _⟩

theorem quote_not_mem_unicodeEscape (n : ℕ) : quote ∉ unicodeEscape n := by
  have digit (d : ℕ) := (hexLower_spec (Nat.mod_lt d (by decide : 0 < 0x10))).1.symm
  simp only [unicodeEscape, List.mem_cons, List.not_mem_nil, or_false, not_or]
  exact ⟨by decide, by decide, digit _, digit _, digit _, digit _⟩

theorem shortEscape_some {n : ℕ} {e : UInt8} (short : shortEscape n = some e) :
    (n < 32 ∨ n = 34 ∨ n = 92) ∧ 32 ≤ e.toNat ∧ e.toNat < 127 ∧ (e = quote → n = 34) := by
  unfold shortEscape at short
  repeat' split at short
  all_goals cases short
  all_goals subst_vars
  all_goals decide

theorem shortEscape_none {n : ℕ} (long : shortEscape n = none) : n ≠ 34 ∧ n ≠ 92 := by
  constructor
  · rintro rfl
    exact absurd long (by decide)
  · rintro rfl
    exact absurd long (by decide)

/-- What `json.dumps` does with a character: a plain one stands for itself, any
other becomes an escape, longer than its UTF-8 bytes, with a quote only for a quote. -/
theorem dumps_char_cases (c : Fin 0x110000) :
    (dumps_char c = [UInt8.ofNat c] ∧ PlainChar c) ∨
      (¬ PlainChar c ∧ (Json.encodePoint c).length < (dumps_char c).length ∧ Escaped (dumps_char c) ∧
        Printable (dumps_char c) ∧ (quote ∈ dumps_char c → c.val = 34)) := by
  unfold dumps_char
  cases short : shortEscape c with
  | some e =>
    obtain ⟨special, low, high, quoteOnly⟩ := shortEscape_some short
    have small : c.val < 0x80 := by omega
    refine Or.inr ⟨fun plain => ?_, by simp [Json.encodePoint, small], .pair .nil, ?_, fun member => ?_⟩
    · obtain ⟨_, _, _, _⟩ := plain
      omega
    · simp only [Printable, List.forall_mem_cons]
      exact ⟨by decide, ⟨low, high⟩, List.forall_mem_nil _⟩
    · simp only [List.mem_cons, List.not_mem_nil, or_false] at member
      rcases member with is | is
      · exact absurd is (by decide)
      · exact quoteOnly is.symm
  | none =>
    obtain ⟨notQuote, notBackslash⟩ := shortEscape_none short
    dsimp only
    split
    · rename_i range
      exact Or.inl ⟨rfl, range.1, range.2, notQuote, notBackslash⟩
    · rename_i outside
      have special : ¬ PlainChar c := fun plain => outside ⟨plain.1, plain.2.1⟩
      have short (n : ℕ) : (Json.encodePoint n).length < 5 := by
        unfold Json.encodePoint
        repeat' split
        all_goals simp
      split
      · exact Or.inr ⟨special, lt_trans (short c) (by simp [unicodeEscape]), escaped_unicodeEscape _,
          printable_unicodeEscape _, fun member => absurd member (quote_not_mem_unicodeEscape _)⟩
      · refine Or.inr ⟨special, lt_trans (short c) (by simp [unicodeEscape]),
          (escaped_unicodeEscape _).append (escaped_unicodeEscape _),
          (printable_unicodeEscape _).append (printable_unicodeEscape _), fun member => ?_⟩
        rcases List.mem_append.mp member with high | low
        · exact absurd high (quote_not_mem_unicodeEscape _)
        · exact absurd low (quote_not_mem_unicodeEscape _)

theorem PlainChar.encodePoint {c : Fin 0x110000} (plain : PlainChar c) :
    Json.encodePoint c = [UInt8.ofNat c] := by
  have small : c.val < 0x80 := lt_trans plain.2.1 (by decide)
  rw [Json.encodePoint, if_pos small]

theorem PlainChar.toNat {c : Fin 0x110000} (plain : PlainChar c) : (UInt8.ofNat c).toNat = c.val := by
  rw [UInt8.toNat_ofNat']
  exact Nat.mod_eq_of_lt (lt_trans plain.2.1 (by decide))

theorem escaped_dumps_str (s : PyStr) : Escaped (dumps_str s) := by
  induction s with
  | nil => exact .nil
  | cons c s ih =>
    rw [dumps_str, List.flatMap_cons]
    rcases dumps_char_cases c with ⟨shape, plain⟩ | ⟨-, -, escaped, -, -⟩
    · rw [shape]
      refine .plain (fun is => plain.2.2.1 ?_) (fun is => plain.2.2.2 ?_) ih
      · rw [← plain.toNat, is]
        rfl
      · rw [← plain.toNat, is]
        rfl
    · exact escaped.append ih

/-- With `ensure_ascii` the wire carries printable ASCII only. -/
theorem printable_dumps_str (s : PyStr) : Printable (dumps_str s) := by
  intro ch member
  obtain ⟨c, -, inner⟩ := List.mem_flatMap.mp member
  rcases dumps_char_cases c with ⟨shape, plain⟩ | ⟨-, -, -, printable, -⟩
  · rw [shape, List.mem_singleton] at inner
    rw [inner, plain.toNat]
    exact ⟨plain.1, plain.2.1⟩
  · exact printable ch inner

/-- Up to the first quote `json.dumps` wrote the text itself exactly when every character is plain. -/
theorem takeWhile_dumps_str_eq_iff (s : PyStr) :
    (dumps_str s).takeWhile (fun ch => ch != quote) = encode s ↔ Plain s := by
  have same (c : Fin 0x110000) (plain : PlainChar c) : dumps_char c = Json.encodePoint c := by
    rw [plain.encodePoint]
    rcases dumps_char_cases c with ⟨shape, -⟩ | ⟨special, -⟩
    · exact shape
    · exact absurd plain special
  have longer (c : Fin 0x110000) (special : ¬ PlainChar c) :
      (Json.encodePoint c).length < (dumps_char c).length := by
    rcases dumps_char_cases c with ⟨-, plain⟩ | ⟨-, longer, -⟩
    · exact absurd plain special
    · exact longer
  have mirrors (c : Fin 0x110000) (member : quote ∈ dumps_char c) : quote ∈ Json.encodePoint c := by
    rcases dumps_char_cases c with ⟨shape, plain⟩ | ⟨-, -, -, -, quoteOnly⟩
    · rwa [plain.encodePoint, ← shape]
    · rw [quoteOnly member]
      decide
  have free (c : Fin 0x110000) (plain : PlainChar c) : quote ∉ Json.encodePoint c := by
    rw [plain.encodePoint, List.mem_singleton]
    intro is
    refine plain.2.2.1 ?_
    rw [← plain.toNat, ← is]
    rfl
  exact takeWhile_flatMap_eq_iff same longer mirrors free s

end PyStr
