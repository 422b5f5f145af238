import SysNetMon.Encoders

/-!
What the server's extractors find in a message that an encoder put together.
-/

namespace SysNetMon
open Bytes Decimal KeySearch Regex

theorem escaped_escape_json (s : Bytes) : Escaped (escape_json s) := by
  induction s with
  | nil => exact .nil
  | cons ch s ih =>
    rw [escape_json, List.flatMap_cons]
    rcases escape_char_cases ch with ⟨e, shape, -, -, -⟩ | ⟨shape, plain⟩
    · rw [shape]
      exact .pair ih
    · simp only [List.mem_cons, List.not_mem_nil, or_false, not_or] at plain
      rw [shape]
      exact .plain plain.2.1 plain.1 ih

theorem token_quoted (s : Bytes) : Token (quoted s) := .quoted (escaped_escape_json s)

theorem token_literal {s : String} (plain : escape_json (ascii s) = ascii s) : Token (literal s) := by
  rw [← quoted_literal plain]
  exact token_quoted _

theorem quote_not_mem_signed {negative : Bool} {s : Bytes} (inner : quote ∉ s) : quote ∉ signed negative s := by
  cases negative with
  | true => simpa [signed] using ⟨by decide, inner⟩
  | false => exact inner

theorem quote_not_mem_of_isdigit {s : Bytes} (all : ∀ ch ∈ s, isdigit ch = true) : quote ∉ s :=
  fun member => absurd (all quote member) (by decide)

theorem token_printInt (i : ℤ) : Token (printInt i) := by
  have plain : quote ∉ printInt i :=
    quote_not_mem_signed (quote_not_mem_of_isdigit fun _ member => isdigit_of_mem_digits member)
  exact .plain fun ch member same => plain (same ▸ member)

theorem token_format_double (value : Double) : Token (format_double value) := by
  have plain : quote ∉ format_double value := by
    refine quote_not_mem_signed ?_
    rw [hundredths, List.mem_append, List.mem_cons, not_or, not_or]
    exact ⟨quote_not_mem_of_isdigit fun _ member => isdigit_of_mem_digits member, by decide,
      quote_not_mem_of_isdigit (isdigit_twoDigits (Nat.mod_lt _ (by decide)))⟩
  exact .plain fun ch member same => plain (same ▸ member)

/-- A numeral starts with a digit or a minus sign. -/
theorem solid_signed (negative : Bool) (n : ℕ) (s : Bytes) :
    ∃ ch cs, signed negative (digits n ++ s) = ch :: cs ∧ isspace ch = false := by
  obtain ⟨c, cs, shape, head⟩ := Json.signed_head negative n s []
  rw [List.append_nil] at shape
  refine ⟨c, cs, shape, ?_⟩
  rcases head with digit | rfl
  · rw [Bool.eq_false_iff]
    intro space
    rw [isspace_iff] at space
    rw [isdigit_iff] at digit
    omega
  · decide

section Extract
variable {gap key : Bytes} {fields : List (Bytes × Bytes)}

/-- A string is read up to its first quote, with its escapes as they stand. -/
theorem json_get_string_objectText (separate : Separate fields) (blank : ∀ ch ∈ gap, isspace ch = true) {e : Bytes}
    (member : (key, quote :: (e ++ [quote])) ∈ fields) :
    json_get_string (objectText gap fields) key = some (e.takeWhile fun ch => ch != quote) := by
  have found := separate.search blank member ⟨quote, _, rfl, by decide⟩ fails_stringValue
    [e.takeWhile fun ch => ch != quote] fun tail _ => by
      obtain ⟨rest, first⟩ := head_runs_stringValue e tail
      exact ⟨rest, by simpa using first⟩
  rw [json_get_string, captured, found]
  rfl

theorem json_get_integer_objectText (separate : Separate fields) (blank : ∀ ch ∈ gap, isspace ch = true) {i : Int64}
    (member : (key, printInt i.toInt) ∈ fields) : json_get_integer (objectText gap fields) key = .ok (some i) := by
  have solid : ∃ ch cs, printInt i.toInt = ch :: cs ∧ isspace ch = false := by
    simpa [printInt] using solid_signed (decide (i.toInt < 0)) i.toInt.natAbs []
  have found := separate.search blank member solid fails_integerValue [printInt i.toInt]
    fun tail closes => ⟨tail, head_runs_integerValue (fun _ inDigits => isdigit_of_mem_digits inDigits)
      (digits_ne_nil _) closes.takeWhile_isdigit⟩
  have range : -2 ^ 63 ≤ readInt (printInt i.toInt) ∧ readInt (printInt i.toInt) < 2 ^ 63 := by
    rw [readInt_printInt]
    exact ⟨i.le_toInt, i.toInt_lt⟩
  rw [json_get_integer, captured, found]
  change (stoll (printInt i.toInt)).map some = _
  rw [stoll, if_pos range, readInt_printInt, Int64.ofInt_toInt]
  rfl

/-- The value that `format_double` prints: rounded to two decimals. -/
def rounded (value : Double) : ℚ := (if value.val < 0 then -1 else 1) * ((cents value : ℚ) / 100)

theorem readDecimal_format_double (value : Double) : readDecimal (format_double value) = rounded value := by
  rw [format_double, readDecimal_signed, rounded]
  by_cases negative : value.val < 0 <;> simp [negative]

theorem abs_rounded (value : Double) : |rounded value| = (cents value : ℚ) / 100 := by
  have nonneg : (0 : ℚ) ≤ (cents value : ℚ) / 100 := by positivity
  rw [rounded, abs_mul, abs_of_nonneg nonneg]
  split <;> simp

/-- Printing moves a value by at most half a hundredth. -/
theorem abs_rounded_sub_le (value : Double) : |rounded value - value.val| ≤ 1 / 200 := by
  have nonneg : 0 ≤ |value.val| * 100 := by positivity
  have close := abs_roundHalfEven_sub_le nonneg
  rw [abs_le] at close ⊢
  unfold rounded cents
  by_cases negative : value.val < 0
  · rw [if_pos negative]
    rw [abs_of_neg negative] at close ⊢
    constructor <;> linarith
  · rw [if_neg negative]
    rw [abs_of_nonneg (not_lt.mp negative)] at close ⊢
    constructor <;> linarith

theorem abs_rounded_le (value : Double) : |rounded value| ≤ maxDouble := by
  have whole : maxDouble = (((2 ^ 53 - 1) * 2 ^ 971 : ℕ) : ℚ) := by
    rw [maxDouble, Nat.cast_mul, Nat.cast_sub Nat.one_le_two_pow, Nat.cast_pow, Nat.cast_pow, Nat.cast_ofNat,
      Nat.cast_one]
  have scaled : |value.val| * 100 ≤ (((2 ^ 53 - 1) * 2 ^ 971 * 100 : ℕ) : ℚ) := by
    rw [Nat.cast_mul, ← whole]
    exact mul_le_mul_of_nonneg_right value.property (by norm_num)
  have bound : cents value ≤ (2 ^ 53 - 1) * 2 ^ 971 * 100 := roundHalfEven_le (by positivity) scaled
  rw [abs_rounded, div_le_iff₀ (by norm_num), whole]
  exact_mod_cast bound

/-- What is left of a value once it was printed. -/
def printed (value : Double) : Double := ⟨rounded value, abs_rounded_le value⟩

/-- A printed value is zero or at least a hundredth, far above the smallest normal `double`. -/
theorem minNormal_le_abs_rounded {value : Double} (positive : 0 < |rounded value|) : minNormal ≤ |rounded value| := by
  rw [abs_rounded] at positive ⊢
  have atLeast : 1 ≤ cents value := by
    by_contra none
    have zero : cents value = 0 := by omega
    rw [zero] at positive
    norm_num at positive
  have cast : (1 : ℚ) ≤ cents value := by exact_mod_cast atLeast
  have large : (100 : ℚ) < 2 ^ 1022 :=
    lt_of_lt_of_le (by norm_num : (100 : ℚ) < 2 ^ 7) (pow_le_pow_right₀ (by norm_num) (by norm_num))
  have tiny : minNormal < 1 / 100 := one_div_lt_one_div_of_lt (by norm_num) large
  linarith

/-- `std::stod` accepts every printed `double`. -/
theorem stod_format_double (platform : Platform) (value : Double) :
    stod platform (format_double value) = .ok (printed value) := by
  have range : |readDecimal (format_double value)| ≤ maxDouble := by
    rw [readDecimal_format_double]
    exact abs_rounded_le value
  have normal : ¬ (0 < |readDecimal (format_double value)| ∧ |readDecimal (format_double value)| < minNormal ∧
      platform.strtod_underflows (readDecimal (format_double value)) = true) := by
    rw [readDecimal_format_double]
    exact fun both => absurd both.2.1 (not_lt.mpr (minNormal_le_abs_rounded both.1))
  rw [stod, dif_pos range, if_neg normal]
  exact congrArg Except.ok (Subtype.ext (readDecimal_format_double value))

theorem json_get_number_objectText (platform : Platform) (separate : Separate fields)
    (blank : ∀ ch ∈ gap, isspace ch = true) {value : Double} (member : (key, format_double value) ∈ fields) :
    json_get_number platform (objectText gap fields) key = .ok (some (printed value)) := by
  have solid : ∃ ch cs, format_double value = ch :: cs ∧ isspace ch = false :=
    solid_signed (decide (value.val < 0)) (cents value / 100) (point :: twoDigits (cents value % 100))
  have found := separate.search blank member solid fails_numberValue [format_double value]
    fun tail closes => ⟨tail, head_runs_numberValue (fun _ inDigits => isdigit_of_mem_digits inDigits)
      (digits_ne_nil _) (isdigit_twoDigits (Nat.mod_lt _ (by decide))) (by simp [twoDigits]) closes.takeWhile_isdigit⟩
  rw [json_get_number, captured, found]
  change (stod platform (format_double value)).map some = _
  rw [stod_format_double]
  rfl

end Extract

end SysNetMon
