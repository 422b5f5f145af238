import Mathlib.Algebra.Order.Field.Rat
import Mathlib.Data.Nat.Cast.Order.Field
import Mathlib.Algebra.Order.Floor.Defs
import Mathlib.Data.Rat.Floor
import Mathlib.Tactic.IntervalCases
import Mathlib.Tactic.Linarith
import Mathlib.Tactic.FieldSimp
import Mathlib.Tactic.Ring
import SysNetMon.Text.Bytes

namespace Decimal
open Bytes

/-- The decimal digits of a number, as `operator<<` prints them. -/
def digits (n : ℕ) : Bytes := (Nat.toDigits 10 n).map Char.toUInt8

/-- The number that a run of digits denotes. -/
def readNat (s : Bytes) : ℕ := s.foldl (fun n ch => 10 * n + (ch.toNat - 48)) 0

theorem toNat_toUInt8_of_isDigit {c : Char} (digit : c.isDigit = true) : c.toUInt8.toNat = c.toNat := by
  have bound : c.toNat < 256 := by
    simp only [Char.isDigit, ge_iff_le, Bool.and_eq_true, decide_eq_true_eq] at digit
    have upper : c.val.toNat ≤ 57 := UInt32.le_iff_toNat_le.mp digit.2
    change c.val.toNat < 256
    omega
  change c.val.toUInt8.toNat = c.val.toNat
  rw [UInt32.toNat_toUInt8]
  exact Nat.mod_eq_of_lt bound

theorem isdigit_of_mem_digits {n : ℕ} {ch : UInt8} (member : ch ∈ digits n) : isdigit ch = true := by
  obtain ⟨c, inDigits, rfl⟩ := List.mem_map.mp member
  have digit := Nat.isDigit_of_mem_toDigits (by omega) (by omega) inDigits
  rw [isdigit_iff, toNat_toUInt8_of_isDigit digit]
  simp only [Char.isDigit, ge_iff_le, Bool.and_eq_true, decide_eq_true_eq] at digit
  exact ⟨UInt32.le_iff_toNat_le.mp digit.1, UInt32.le_iff_toNat_le.mp digit.2⟩

theorem digits_ne_nil (n : ℕ) : digits n ≠ [] := by
  simp [digits, Nat.toDigits_ne_nil]

theorem readNat_map_toUInt8 {l : List Char} (all : ∀ c ∈ l, c.isDigit = true) (n : ℕ) :
    (l.map Char.toUInt8).foldl (fun n ch => 10 * n + (ch.toNat - 48)) n = Nat.ofDigitChars 10 l n := by
  induction l generalizing n with
  | nil => rfl
  | cons c cs ih =>
    rw [List.map_cons, List.foldl_cons, Nat.ofDigitChars_cons,
      toNat_toUInt8_of_isDigit (all c List.mem_cons_self)]
    exact ih (fun d member => all d (List.mem_cons_of_mem c member)) _

/-- Reading back what was printed. -/
theorem readNat_digits (n : ℕ) : readNat (digits n) = n := by
  rw [readNat, digits, readNat_map_toUInt8, Nat.ofDigitChars_ten_toDigits]
  intro c member
  exact Nat.isDigit_of_mem_toDigits (by omega) (by omega) member

theorem digits_inj {m n : ℕ} (same : digits m = digits n) : m = n := by
  rw [← readNat_digits m, same, readNat_digits]

/-- The first digit of a printed number is a zero only for zero itself. -/
theorem eq_zero_of_digits_head {n : ℕ} (head : (digits n).head? = some 48) : n = 0 := by
  induction n using Nat.strong_induction_on with
  | _ n ih =>
    rw [digits, Nat.toDigits_eq_if (by omega)] at head
    split at head
    · rename_i small
      interval_cases n <;> revert head <;> decide
    · rename_i large
      have inner : (digits (n / 10)).head? = some 48 := by
        rw [List.map_append, List.head?_append_of_ne_nil _ (by simp [Nat.toDigits_ne_nil])] at head
        exact head
      have quotient := ih (n / 10) (by omega) inner
      omega

/-- A whole number with its sign, as `operator<<` prints a `long long`. -/
def signed (negative : Bool) (s : Bytes) : Bytes := if negative then 45 :: s else s

def printInt (i : ℤ) : Bytes := signed (decide (i < 0)) (digits i.natAbs)

def readInt : Bytes → ℤ
  | 45 :: s => -(readNat s : ℤ)
  | s => readNat s

def point : UInt8 := 46

/-- The exact value of a numeral `-?[0-9]+(\.[0-9]+)?`. -/
def readUnsigned (s : Bytes) : ℚ :=
  let fraction := ((s.dropWhile isdigit).drop 1).takeWhile isdigit
  readNat (s.takeWhile isdigit) + readNat fraction / 10 ^ fraction.length

def readDecimal : Bytes → ℚ
  | 45 :: s => -readUnsigned s
  | s => readUnsigned s

def twoDigits (n : ℕ) : Bytes := [48 + UInt8.ofNat (n / 10), 48 + UInt8.ofNat (n % 10)]

/-- `n` hundredths in fixed notation with two decimals. -/
def hundredths (n : ℕ) : Bytes := digits (n / 100) ++ point :: twoDigits (n % 100)

/-- Rounding to the nearest whole number, ties to even. -/
def roundHalfEven (x : ℚ) : ℕ :=
  let below := ⌊x⌋.toNat
  let rest := x - below
  if rest < 1 / 2 then below
  else if 1 / 2 < rest then below + 1
  else if below % 2 = 0 then below else below + 1

theorem digits_head_ne_minus (n : ℕ) (s : Bytes) : ∀ t, digits n ++ s ≠ 45 :: t := by
  intro t same
  cases shape : digits n with
  | nil => exact digits_ne_nil n shape
  | cons c cs =>
    rw [shape, List.cons_append, List.cons.injEq] at same
    have digit := isdigit_of_mem_digits (shape ▸ List.mem_cons_self : c ∈ digits n)
    rw [same.1] at digit
    exact absurd digit (by decide)

theorem readInt_printInt (i : ℤ) : readInt (printInt i) = i := by
  unfold printInt signed
  by_cases negative : i < 0
  · simp only [negative, decide_true, if_true, readInt, readNat_digits]
    omega
  · simp only [negative, decide_false, Bool.false_eq_true, if_false]
    unfold readInt
    split
    · rename_i s same
      exact absurd (by simpa using same) (digits_head_ne_minus i.natAbs [] s)
    · rw [readNat_digits]
      omega

theorem isdigit_twoDigits {n : ℕ} (bound : n < 100) : ∀ ch ∈ twoDigits n, isdigit ch = true := by
  have tens : n / 10 < 10 := by omega
  have ones : n % 10 < 10 := by omega
  intro ch member
  simp only [twoDigits, List.mem_cons, List.not_mem_nil, or_false] at member
  rcases member with rfl | rfl
  · generalize n / 10 = d at tens
    interval_cases d <;> decide
  · generalize n % 10 = d at ones
    interval_cases d <;> decide

theorem printable_of_isdigit {s : Bytes} (all : ∀ ch ∈ s, isdigit ch = true) : Printable s := by
  intro ch member
  have digit := isdigit_iff.mp (all ch member)
  omega

theorem printable_digits (n : ℕ) : Printable (digits n) :=
  printable_of_isdigit fun _ member => isdigit_of_mem_digits member

theorem printable_twoDigits {n : ℕ} (bound : n < 100) : Printable (twoDigits n) :=
  printable_of_isdigit (isdigit_twoDigits bound)

theorem printable_hundredths (n : ℕ) : Printable (hundredths n) :=
  (printable_digits _).append ((show Printable [point] by decide).append
    (printable_twoDigits (Nat.mod_lt _ (by decide))))

theorem printable_signed {s : Bytes} (printable : Printable s) (negative : Bool) :
    Printable (signed negative s) := by
  cases negative with
  | true => exact (show Printable [45] by decide).append printable
  | false => exact printable

theorem readNat_twoDigits {n : ℕ} (bound : n < 100) : readNat (twoDigits n) = n := by
  have tens : n / 10 < 10 := by omega
  have ones : n % 10 < 10 := by omega
  have digit (d : ℕ) (small : d < 10) : (48 + UInt8.ofNat d).toNat = 48 + d := by
    interval_cases d <;> decide
  simp only [readNat, twoDigits, List.foldl_cons, List.foldl_nil, digit _ tens, digit _ ones]
  omega

theorem split_hundreds (n : ℕ) : (n : ℚ) = 100 * (n / 100 : ℕ) + (n % 100 : ℕ) := by
  exact_mod_cast (Nat.div_add_mod n 100).symm

theorem readUnsigned_hundredths (n : ℕ) : readUnsigned (hundredths n) = (n : ℚ) / 100 := by
  have two : n % 100 < 100 := Nat.mod_lt _ (by decide)
  have noDigit : isdigit point = false := by decide
  have wholeAll : ∀ ch ∈ digits (n / 100), isdigit ch = true := fun ch member => isdigit_of_mem_digits member
  have whole : (hundredths n).takeWhile isdigit = digits (n / 100) := by
    rw [hundredths, List.takeWhile_append_of_pos wholeAll, List.takeWhile_cons_of_neg (by simp [noDigit]),
      List.append_nil]
  have rest : (hundredths n).dropWhile isdigit = point :: twoDigits (n % 100) := by
    rw [hundredths, List.dropWhile_append_of_pos wholeAll, List.dropWhile_cons_of_neg (by simp [noDigit])]
  have fraction : (twoDigits (n % 100)).takeWhile isdigit = twoDigits (n % 100) :=
    List.takeWhile_eq_self_iff.mpr (isdigit_twoDigits two)
  simp only [readUnsigned, whole, rest, List.drop_succ_cons, List.drop_zero, fraction,
    readNat_digits, readNat_twoDigits two]
  rw [split_hundreds n]
  simp only [twoDigits, List.length_cons, List.length_nil]
  ring

theorem readDecimal_signed (negative : Bool) (n : ℕ) :
    readDecimal (signed negative (hundredths n)) = (if negative then -1 else 1) * ((n : ℚ) / 100) := by
  cases negative with
  | true => simp [signed, readDecimal, readUnsigned_hundredths]
  | false =>
    simp only [signed, Bool.false_eq_true, if_false, one_mul]
    unfold readDecimal
    split
    · rename_i s same
      exact absurd same (digits_head_ne_minus _ _ s)
    · exact readUnsigned_hundredths n

/-- Rounding never passes a whole number. -/
theorem roundHalfEven_le {x : ℚ} {n : ℕ} (nonneg : 0 ≤ x) (bound : x ≤ n) : roundHalfEven x ≤ n := by
  have floorNonneg : 0 ≤ ⌊x⌋ := Int.floor_nonneg.mpr nonneg
  have cast : ((⌊x⌋.toNat : ℕ) : ℚ) = (⌊x⌋ : ℚ) := by
    exact_mod_cast congrArg (fun i : ℤ => (i : ℚ)) (Int.toNat_of_nonneg floorNonneg)
  have floorLe : ⌊x⌋.toNat ≤ n := by
    have below : (⌊x⌋ : ℚ) ≤ n := (Int.floor_le x).trans bound
    rw [← cast] at below
    exact_mod_cast below
  have step (half : ¬ x - (⌊x⌋.toNat : ℚ) < 1 / 2) : ⌊x⌋.toNat + 1 ≤ n := by
    by_contra reached
    have same : ⌊x⌋.toNat = n := by omega
    rw [same] at half
    linarith
  unfold roundHalfEven
  simp only
  split
  · exact floorLe
  · rename_i half
    split
    · exact step half
    · split
      · exact floorLe
      · exact step half

/-- Rounding moves a number by at most a half. -/
theorem abs_roundHalfEven_sub_le {x : ℚ} (nonneg : 0 ≤ x) : |(roundHalfEven x : ℚ) - x| ≤ 1 / 2 := by
  have cast : ((⌊x⌋.toNat : ℕ) : ℚ) = (⌊x⌋ : ℚ) := by
    exact_mod_cast congrArg (fun i : ℤ => (i : ℚ)) (Int.toNat_of_nonneg (Int.floor_nonneg.mpr nonneg))
  have below : ((⌊x⌋.toNat : ℕ) : ℚ) ≤ x := cast ▸ Int.floor_le x
  have above : x < ((⌊x⌋.toNat : ℕ) : ℚ) + 1 := cast ▸ Int.lt_floor_add_one x
  unfold roundHalfEven
  simp only
  split
  · rw [abs_le]
    constructor <;> linarith
  · split
    · push_cast
      rw [abs_le]
      constructor <;> linarith
    · split
      · rw [abs_le]
        constructor <;> linarith
      · push_cast
        rw [abs_le]
        constructor <;> linarith

end Decimal
