import SysNetMon.Text.Decimal

/-!
Text in columns: words and numerals between blanks, and what a reader finds that
skips blanks and takes what follows.
-/

namespace Columns
open Bytes Decimal

section Stops
variable {α : Type*} {p : α → Bool} {token rest : List α}

/-- The text does not go on with what `p` accepts. -/
def Stops (p : α → Bool) (rest : List α) : Prop := ∀ a ∈ rest.head?, p a = false

theorem Stops.takeWhile (stops : Stops p rest) : rest.takeWhile p = [] := by
  cases rest with
  | nil => rfl
  | cons a rest => rw [List.takeWhile_cons, stops a rfl, if_neg Bool.false_ne_true]

theorem Stops.dropWhile (stops : Stops p rest) : rest.dropWhile p = rest := by
  cases rest with
  | nil => rfl
  | cons a rest => rw [List.dropWhile_cons, stops a rfl, if_neg Bool.false_ne_true]

theorem takeWhile_token (all : ∀ a ∈ token, p a = true) (stops : Stops p rest) :
    (token ++ rest).takeWhile p = token := by
  rw [List.takeWhile_append_of_pos all, stops.takeWhile, List.append_nil]

theorem dropWhile_token (all : ∀ a ∈ token, p a = true) (stops : Stops p rest) :
    (token ++ rest).dropWhile p = rest := by
  rw [List.dropWhile_append_of_pos all, stops.dropWhile]

/-- A token that is not empty and that `p` rejects throughout stops `p`. -/
theorem Stops.of_token (all : ∀ a ∈ token, p a = false) (some : token ≠ []) (rest : List α) :
    Stops p (token ++ rest) := by
  obtain ⟨a, token, rfl⟩ := List.exists_cons_of_ne_nil some
  rintro _ ⟨⟩
  exact all a List.mem_cons_self

end Stops

/-- Blanks of a number. -/
def blanks (n : ℕ) : Bytes := List.replicate n 32

/-- A numeral, with blanks before it. -/
def column (c : ℕ × ℕ) : Bytes := blanks c.1 ++ digits c.2

theorem isspace_blanks {n : ℕ} : ∀ ch ∈ blanks n, isspace ch = true := by
  intro ch member
  rw [(List.mem_replicate.mp member).2]
  rfl

theorem not_isspace_digit {ch : UInt8} (digit : isdigit ch = true) : isspace ch = false := by
  rw [Bool.eq_false_iff]
  intro space
  rw [isspace_iff] at space
  rw [isdigit_iff] at digit
  omega

theorem isdigit_digits (n : ℕ) : ∀ ch ∈ digits n, isdigit ch = true := fun _ => isdigit_of_mem_digits

/-- A numeral stops the blanks before it. -/
theorem stops_digits (n : ℕ) (rest : Bytes) : Stops isspace (digits n ++ rest) :=
  .of_token (fun ch member => not_isspace_digit (isdigit_digits n ch member)) (digits_ne_nil n) rest

/-- Skipping the blanks leads to the numeral. -/
theorem dropWhile_column (c : ℕ × ℕ) (rest : Bytes) :
    (column c ++ rest).dropWhile isspace = digits c.2 ++ rest := by
  rw [column, List.append_assoc]
  exact dropWhile_token isspace_blanks (stops_digits c.2 rest)

/-- A blank stops a numeral. -/
theorem stops_blanks {n : ℕ} (some : 0 < n) (rest : Bytes) : Stops isdigit (blanks n ++ rest) := by
  obtain ⟨n, rfl⟩ := Nat.exists_eq_succ_of_ne_zero some.ne'
  rintro _ ⟨⟩
  rfl

/-- Columns that are set apart stop a numeral before them. -/
theorem stops_columns {columns : List (ℕ × ℕ)} (apart : ∀ c ∈ columns, 0 < c.1) {rest : Bytes}
    (stops : Stops isdigit rest) : Stops isdigit (columns.flatMap column ++ rest) := by
  cases columns with
  | nil => exact stops
  | cons c columns =>
    rw [List.flatMap_cons, column, List.append_assoc, List.append_assoc]
    exact stops_blanks (apart c List.mem_cons_self) _

end Columns
