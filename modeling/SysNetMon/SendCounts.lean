import SysNetMon.SendLine

/-!
The counts that `send_line` passes to `send`, in the range of `int` and beyond.
-/

namespace SysNetMon
open Bytes Finset

/-- What is expected of a call of `send_line`: it returns; each count that it
passes to `send` is the number of bytes that the results before have left; it
returns true when the socket took the line, and false when some `send` took
nothing, after a part of the line. -/
structure SendsExactly (payload : Bytes) (results : ℕ → ℤ) : Prop where
  terminates : (send_line results payload).returned ≠ none
  requested : ∀ i count, (send_line results payload).requested[i]? = some count →
    count = (payload ++ [newline]).length - ∑ j ∈ range i, results j
  whole : (send_line results payload).returned = some true ↔
    (send_line results payload).accepted = payload ++ [newline]
  broken : (send_line results payload).returned = some false ↔
    ∃ i < (send_line results payload).requested.length, results i ≤ 0
  part : (send_line results payload).returned = some false →
    (send_line results payload).accepted <+: payload ++ [newline] ∧
      (send_line results payload).accepted ≠ payload ++ [newline]

theorem toInt_eq {n : ℤ} (nonneg : 0 ≤ n) (small : n < 2 ^ 31) : toInt n = n := by
  rw [toInt, Int.bmod_def]
  omega

/-- The number of unsent bytes is passed on as it is exactly in the range of `int`. -/
theorem toInt_eq_iff {n : ℕ} : toInt n = n ↔ n < 2 ^ 31 := by
  rw [toInt, Int.bmod_def]
  omega

theorem unsent_after {size total_sent : ℕ} {sent : ℤ} (nonneg : 0 ≤ sent) (fits : sent ≤ (size - total_sent : ℕ)) :
    ((size - (total_sent + sent.toNat) : ℕ) : ℤ) = (size - total_sent : ℕ) - sent := by
  omega

/-- The counts of the loop are narrowed from the numbers of unsent bytes, and
only the last result is not positive, if one is. -/
theorem send_loop_requested {data : Bytes} {fuel : ℕ} {results : ℕ → ℤ} (total_sent : ℕ)
    (admissible : Admissible (data.length - total_sent) results) :
    (∀ i count, (send_loop data fuel results total_sent).requested[i]? = some count →
      0 ≤ ∑ j ∈ range i, results j ∧ ∑ j ∈ range i, results j < (data.length - total_sent : ℕ) ∧
        count = toInt ((data.length - total_sent : ℕ) - ∑ j ∈ range i, results j)) ∧
    ((send_loop data fuel results total_sent).returned = some false ↔
      ∃ i < (send_loop data fuel results total_sent).requested.length, results i ≤ 0) := by
  induction fuel generalizing total_sent results with
  | zero => exact ⟨fun i count at' => absurd at' (Option.some_ne_none count).symm, by simp [send_loop]⟩
  | succ fuel ih =>
    rw [send_loop]
    by_cases unsent : total_sent < data.length
    · obtain ⟨same, lower, upper⟩ := admissible.head (by omega)
      rw [if_pos unsent]
      dsimp only
      rw [same]
      have first : 0 ≤ ∑ j ∈ range 0, results j ∧ ∑ j ∈ range 0, results j < (data.length - total_sent : ℕ) ∧
          toInt (data.length - total_sent : ℕ) =
            toInt ((data.length - total_sent : ℕ) - ∑ j ∈ range 0, results j) := by
        rw [range_zero, sum_empty, sub_zero]
        exact ⟨le_rfl, by omega, rfl⟩
      by_cases failed : results 0 ≤ 0
      · rw [if_pos failed]
        refine ⟨fun i count at' => ?_, by simp [failed]⟩
        obtain ⟨rfl, is⟩ : i = 0 ∧ toInt (data.length - total_sent : ℕ) = count := by
          simpa [List.getElem?_singleton] using at'
        rwa [← is]
      · rw [if_neg failed]
        have lower' : 0 ≤ results 0 := (not_le.mp failed).le
        have tail := admissible.tail (by omega) upper
        rw [Nat.sub_sub] at tail
        obtain ⟨counts, breaks⟩ := ih (total_sent + (results 0).toNat) tail
        refine ⟨fun i count at' => ?_, ?_⟩
        · cases i with
          | zero => rwa [← Option.some.inj at']
          | succ i =>
            obtain ⟨nonneg, below, is⟩ := counts i count at'
            rw [unsent_after lower' upper] at below is
            rw [sum_range_succ', is, sub_sub, add_comm (results 0)]
            exact ⟨add_nonneg nonneg lower', lt_sub_iff_add_lt.mp below, rfl⟩
        · rw [breaks]
          constructor
          · rintro ⟨i, inRange, notPositive⟩
            exact ⟨i + 1, Nat.succ_lt_succ inRange, notPositive⟩
          · rintro ⟨i, inRange, notPositive⟩
            cases i with
            | zero => exact absurd notPositive failed
            | succ i => exact ⟨i, Nat.lt_of_succ_lt_succ inRange, notPositive⟩
    · rw [if_neg unsent]
      exact ⟨fun i count at' => absurd at' (Option.some_ne_none count).symm, by simp⟩

/-- The first count is that of the whole line. -/
theorem send_line_first_request (results : ℕ → ℤ) (payload : Bytes) :
    (send_line results payload).requested[0]? = some (toInt (payload ++ [newline]).length) := by
  have unsent : 0 < (payload ++ [newline]).length := by simp
  rw [send_line, send_loop, if_pos unsent]
  dsimp only
  split <;> rfl

/-- For results that `send` may return, a call sends exactly what it should when
the line with its newline has fewer than `2 ^ 31` bytes. -/
theorem send_line_exact_iff {payload : Bytes} {results : ℕ → ℤ} (admissible : Admissible (payload.length + 1) results) :
    SendsExactly payload results ↔ payload.length + 1 < 2 ^ 31 := by
  have size : (payload ++ [newline]).length = payload.length + 1 := by simp
  constructor
  · intro sends
    have first := sends.requested 0 _ (send_line_first_request results payload)
    rw [range_zero, sum_empty, sub_zero, toInt_eq_iff, size] at first
    exact first
  · intro small
    have fits : Admissible ((payload ++ [newline]).length - 0) results := by rwa [Nat.sub_zero, size]
    obtain ⟨counts, breaks⟩ := @send_loop_requested _ ((payload ++ [newline]).length + 1) _ 0 fits
    have sent := send_line_sent admissible
    constructor
    case requested =>
      intro i count at'
      obtain ⟨nonneg, below, is⟩ := counts i count at'
      rw [Nat.sub_zero] at below is
      rw [is]
      exact toInt_eq (sub_nonneg.mpr below.le) (by omega)
    case broken => exact breaks
    case terminates =>
      cases sent with
      | whole _ returned _ _ => exact returned ▸ Option.some_ne_none true
      | nothing _ returned _ => exact returned ▸ Option.some_ne_none false
      | part _ _ _ returned _ => exact returned ▸ Option.some_ne_none false
    case whole =>
      cases sent with
      | whole accepted returned _ _ => simp [returned, accepted]
      | nothing accepted returned _ => simp [returned, accepted]
      | part _ below accepted returned _ =>
        rw [returned, accepted, List.take_eq_self_iff]
        exact iff_of_false (by decide) (not_le.mpr below)
    case part =>
      intro failed
      cases sent with
      | whole accepted returned _ _ => rw [returned] at failed; cases failed
      | nothing accepted returned _ => simp [accepted]
      | part _ below accepted returned _ =>
        rw [accepted, Ne, List.take_eq_self_iff]
        exact ⟨List.take_prefix _ _, not_le.mpr below⟩

/-- Two bytes and a newline, taken one by one until the connection is lost. -/
theorem send_line_exact_iff_broken : SendsExactly (ascii "ok") fun i => if i = 2 then -1 else 1 :=
  (send_line_exact_iff (admissible_of_small (by decide) fun i => by split <;> simp)).mpr (by decide)

/-- With its newline the line has `2 ^ 31` bytes, and `send` is asked for `- 2 ^ 31`. -/
theorem longest_line_misses_count :
    ¬ ∀ payload results, Admissible (payload.length + 1) results → SendsExactly payload results := by
  intro sends
  have failing : Admissible ((List.replicate (2 ^ 31 - 1) (0 : UInt8)).length + 1) fun _ => -1 :=
    fun _ _ _ => Or.inl rfl
  have first := (sends _ _ failing).requested 0 _ (send_line_first_request _ _)
  rw [range_zero, sum_empty, sub_zero, toInt_eq_iff, List.length_append, List.length_replicate] at first
  exact absurd first (by decide)

end SysNetMon
