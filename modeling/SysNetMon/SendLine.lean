import Mathlib.Algebra.Order.BigOperators.Group.Finset
import SysNetMon.Wire

/-!
What `send_line` puts on a socket when `send` takes only a part of what it is
offered, or fails.
-/

namespace SysNetMon
open Bytes Finset

/-- `static_cast<int>` -/
def toInt (n : ℤ) : ℤ := n.bmod (2 ^ 32)

/-- One call of `send_line`: the counts that it passed to `send`, the bytes that
the socket took, and what it returned. -/
structure Transmission where
  requested : List ℤ
  accepted : Bytes
  returned : Option Bool

/-- The loop of `send_line`. `results i` is what the call of `send` at position
`i` returns; `fuel` bounds their number. -/
def send_loop (data : Bytes) : ℕ → (ℕ → ℤ) → ℕ → Transmission
  | 0, _, _ => ⟨[], [], none⟩
  | fuel + 1, results, total_sent =>
    if total_sent < data.length then
      let requested := toInt (data.length - total_sent : ℕ)
      let accepted := (data.drop total_sent).take (results 0).toNat
      let sent := toInt (results 0)
      if sent ≤ 0 then ⟨[requested], accepted, some false⟩
      else
        let rest := send_loop data fuel (fun i => results (i + 1)) (total_sent + sent.toNat)
        ⟨requested :: rest.requested, accepted ++ rest.accepted, rest.returned⟩
    else ⟨[], [], some true⟩

def send_line (results : ℕ → ℤ) (payload : Bytes) : Transmission :=
  let data := payload ++ [newline]
  send_loop data (data.length + 1) results 0

/-- What `send` may return while `size` bytes are unsent: it fails, or it takes
at most as many bytes as the `int` that it is passed says. From `2 ^ 31` bytes on
that number can be negative, which leaves only the failure here; a `send` that
takes it for a huge `size_t` may do otherwise. -/
def Admissible (size : ℕ) (results : ℕ → ℤ) : Prop :=
  ∀ i, (∀ j < i, 0 < results j) → ∑ j ∈ range i, results j < size →
    results i = -1 ∨ 0 ≤ results i ∧ results i ≤ toInt (size - ∑ j ∈ range i, results j)

/-- The results break off after a part of `size` bytes. -/
def BreaksOff (size : ℕ) (results : ℕ → ℤ) : Prop :=
  ∃ n, (∀ j ≤ n, 0 < results j) ∧ ∑ j ∈ range (n + 1), results j < size ∧ results (n + 1) ≤ 0

theorem toInt_le {n : ℤ} (nonneg : 0 ≤ n) : toInt n ≤ n := by
  rw [toInt, Int.bmod_def]
  split <;> omega

theorem toInt_of_admitted {n size : ℤ} (nonneg : 0 ≤ n) (small : n ≤ toInt size) : toInt n = n := by
  have upper : toInt size < 2 ^ 31 := by
    rw [toInt, Int.bmod_def]
    split <;> omega
  rw [toInt, Int.bmod_def]
  omega

section Results
variable {size : ℕ} {results : ℕ → ℤ}

/-- The first result: a failure, or a number of bytes that are there. -/
theorem Admissible.head (admissible : Admissible size results) (some : 0 < size) :
    toInt (results 0) = results 0 ∧ -1 ≤ results 0 ∧ results 0 ≤ size := by
  have first := admissible 0 (fun j below => absurd below (Nat.not_lt_zero j)) (by simpa using some)
  rw [range_zero, sum_empty, sub_zero] at first
  rcases first with failed | ⟨nonneg, small⟩
  · rw [failed]
    exact ⟨by decide, le_rfl, by omega⟩
  · exact ⟨toInt_of_admitted nonneg small, by omega, small.trans (toInt_le (Int.natCast_nonneg size))⟩

theorem Admissible.tail (admissible : Admissible size results) (some : 0 < results 0) (small : results 0 ≤ size) :
    Admissible (size - (results 0).toNat) fun i => results (i + 1) := by
  intro i positive below
  beta_reduce at below ⊢
  have all : ∀ j < i + 1, 0 < results j := by
    intro j inRange
    cases j with
    | zero => exact some
    | succ j => exact positive j (by omega)
  have next := admissible (i + 1) all
  rw [sum_range_succ'] at next
  have less : size - (∑ j ∈ range i, results (j + 1) + results 0) =
      ((size - (results 0).toNat : ℕ) : ℤ) - ∑ j ∈ range i, results (j + 1) := by omega
  rw [less] at next
  exact next (by omega)

theorem breaksOff_iff (some : 0 < results 0) (part : results 0 < size) :
    BreaksOff size results ↔
      results 1 ≤ 0 ∨ BreaksOff (size - (results 0).toNat) fun i => results (i + 1) := by
  constructor
  · rintro ⟨n, positive, below, failed⟩
    cases n with
    | zero => exact Or.inl failed
    | succ n =>
      rw [sum_range_succ'] at below
      refine Or.inr ⟨n, fun j inRange => positive (j + 1) (by omega), ?_, failed⟩
      beta_reduce
      omega
  · rintro (failed | ⟨n, positive, below, failed⟩)
    · exact ⟨0, fun j inRange => by rwa [Nat.le_zero.mp inRange], by simpa using part, failed⟩
    · refine ⟨n + 1, fun j inRange => ?_, ?_, failed⟩
      · cases j with
        | zero => exact some
        | succ j => exact positive j (by omega)
      · beta_reduce at below
        rw [sum_range_succ']
        omega

theorem not_breaksOff (whole : size ≤ results 0) : ¬ BreaksOff size results := by
  rintro ⟨n, positive, below, -⟩
  rw [sum_range_succ'] at below
  have rest : 0 ≤ ∑ j ∈ range n, results (j + 1) :=
    sum_nonneg fun j inRange => (positive (j + 1) (mem_range.mp inRange)).le
  omega

end Results

/-- What a call can come to: everything is sent, nothing is, or a part. -/
inductive Sent (data : Bytes) (results : ℕ → ℤ) (t : Transmission) : Prop
  | whole : t.accepted = data → t.returned = some true → 0 < results 0 → ¬ BreaksOff data.length results →
      Sent data results t
  | nothing : t.accepted = [] → t.returned = some false → results 0 ≤ 0 → Sent data results t
  | part {n} : 0 < n → n < data.length → t.accepted = data.take n → t.returned = some false →
      BreaksOff data.length results → Sent data results t

theorem send_loop_sent {data : Bytes} {fuel : ℕ} {results : ℕ → ℤ} (total_sent : ℕ) (unsent : total_sent < data.length)
    (enough : data.length - total_sent < fuel) (admissible : Admissible (data.length - total_sent) results) :
    Sent (data.drop total_sent) results (send_loop data fuel results total_sent) := by
  induction fuel generalizing total_sent results with
  | zero => omega
  | succ fuel ih =>
    have size : (data.drop total_sent).length = data.length - total_sent := List.length_drop
    obtain ⟨same, lower, upper⟩ := admissible.head (by omega)
    rw [send_loop, if_pos unsent]
    dsimp only
    rw [same]
    by_cases failed : results 0 ≤ 0
    · rw [if_pos failed]
      exact .nothing (by rw [Int.toNat_of_nonpos failed, List.take_zero]) rfl failed
    rw [if_neg failed]
    by_cases all : data.length = total_sent + (results 0).toNat
    · have last : send_loop data fuel (fun i => results (i + 1)) (total_sent + (results 0).toNat) =
          ⟨[], [], some true⟩ := by
        obtain ⟨k, rfl⟩ := Nat.exists_eq_succ_of_ne_zero (show fuel ≠ 0 by omega)
        rw [send_loop, if_neg (by omega)]
      rw [last]
      refine .whole ?_ rfl (by omega) (not_breaksOff (by omega))
      rw [List.append_nil, List.take_of_length_le (by omega)]
    · have rest := @ih (fun i => results (i + 1)) (total_sent + (results 0).toNat) (by omega) (by omega)
        (by rw [← Nat.sub_sub]; exact admissible.tail (by omega) (by omega))
      have breaks := @breaksOff_iff (data.length - total_sent) results (by omega) (by omega)
      have later : data.length - total_sent - (results 0).toNat = (data.drop (total_sent + (results 0).toNat)).length := by
        rw [List.length_drop, Nat.sub_sub]
      rw [later, ← size] at breaks
      cases rest with
      | whole accepted returned positive steady =>
        have positive : 0 < results 1 := positive
        refine .whole ?_ returned (by omega) (fun broken => ?_)
        · rw [accepted, ← List.drop_drop, List.take_append_drop]
        · exact (breaks.mp broken).elim (fun now => absurd positive (by omega)) steady
      | nothing accepted returned failedNext =>
        refine .part (n := (results 0).toNat) (by omega) (by omega) ?_ returned (breaks.mpr (Or.inl failedNext))
        rw [accepted, List.append_nil]
      | @part n positive below accepted returned broken =>
        refine .part (n := (results 0).toNat + n) (by omega) ?_ ?_ returned (breaks.mpr (Or.inr broken))
        · rw [List.length_drop] at below ⊢
          omega
        · rw [accepted, ← List.drop_drop, List.take_add]

theorem send_line_sent {payload : Bytes} {results : ℕ → ℤ} (admissible : Admissible (payload.length + 1) results) :
    Sent (payload ++ [newline]) results (send_line results payload) := by
  have size : (payload ++ [newline]).length = payload.length + 1 := by simp
  exact send_loop_sent 0 (by omega) (by omega) (by rwa [size])

/-- What a connection has been given of the lines sent to it. `sends k i` is the
result of the call of `send` at position `i` for the line at position `k`; the
server looks at no result of `send_line`. -/
def put (sends : ℕ → ℕ → ℤ) : List ServerEvent → Bytes
  | [] => []
  | event :: events => (send_line (sends 0) event.to_json).accepted ++ put (fun k => sends (k + 1)) events

/-- `send_line` returns false after the socket took a part of the line. -/
def FailsPartWay (results : ℕ → ℤ) (event : ServerEvent) : Prop :=
  (send_line results event.to_json).returned = some false ∧ (send_line results event.to_json).accepted ≠ []

/-- The bytes on the connection are a prefix of a concatenation of whole lines,
and nothing follows a line that failed part-way. -/
def WholeLines (sends : ℕ → ℕ → ℤ) (events : List ServerEvent) : Prop :=
  (∃ sent : List ServerEvent, sent.Sublist events ∧
    put sends events <+: sent.flatMap fun event => event.to_json ++ [newline]) ∧
  ∀ earlier event later, events = earlier ++ event :: later → FailsPartWay (sends earlier.length) event →
    put (fun k => sends (earlier.length + 1 + k)) later = []

/-- After the results for a line break off, `send` fails for every later line. -/
def FailsFromThen (sends : ℕ → ℕ → ℤ) (events : List ServerEvent) : Prop :=
  ∀ k event, events[k]? = some event → BreaksOff (event.to_json.length + 1) (sends k) →
    ∀ j, k < j → j < events.length → sends j 0 ≤ 0

/-- Every call of `send` for these lines returns what `send` may return. -/
def AllAdmissible (sends : ℕ → ℕ → ℤ) (events : List ServerEvent) : Prop :=
  ∀ k event, events[k]? = some event → Admissible (event.to_json.length + 1) (sends k)

section Connection
variable {sends : ℕ → ℕ → ℤ} {results : ℕ → ℤ} {event : ServerEvent} {events : List ServerEvent}

theorem BreaksOff.positive {size : ℕ} (broken : BreaksOff size results) : 0 < results 0 := by
  obtain ⟨n, positive, -⟩ := broken
  exact positive 0 (Nat.zero_le n)

theorem accepted_eq_nil_iff (admissible : Admissible (event.to_json.length + 1) results) :
    (send_line results event.to_json).accepted = [] ↔ results 0 ≤ 0 := by
  cases send_line_sent admissible with
  | whole accepted returned positive steady => simp [accepted, positive]
  | nothing accepted returned failed => simp [accepted, failed]
  | part some_ below accepted returned broken =>
    have positive := broken.positive
    rw [accepted, List.take_eq_nil_iff]
    simp [some_.ne', positive]

theorem failsPartWay_iff (admissible : Admissible (event.to_json.length + 1) results) :
    FailsPartWay results event ↔ BreaksOff (event.to_json.length + 1) results := by
  have size : (event.to_json ++ [newline]).length = event.to_json.length + 1 := by simp
  rw [FailsPartWay, Ne, accepted_eq_nil_iff admissible]
  cases send_line_sent admissible with
  | whole accepted returned positive steady =>
    rw [size] at steady
    simp [returned, steady]
  | nothing accepted returned failed =>
    have steady : ¬ BreaksOff (event.to_json.length + 1) results := fun broken => absurd broken.positive (by omega)
    simp [failed, steady]
  | part some_ below accepted returned broken =>
    rw [size] at broken
    have := broken.positive
    simp [returned, broken, this]

theorem AllAdmissible.drop (all : AllAdmissible sends events) (n : ℕ) :
    AllAdmissible (fun k => sends (n + k)) (events.drop n) := by
  intro k event atIndex
  rw [List.getElem?_drop] at atIndex
  exact all (n + k) event atIndex

theorem put_eq_nil_iff (all : AllAdmissible sends events) :
    put sends events = [] ↔ ∀ k < events.length, sends k 0 ≤ 0 := by
  induction events generalizing sends with
  | nil => simp [put]
  | cons event events ih =>
    have tail : AllAdmissible (fun k => sends (k + 1)) events := fun k other atIndex => all (k + 1) other atIndex
    rw [put, List.append_eq_nil_iff, accepted_eq_nil_iff (all 0 event rfl), ih tail]
    constructor
    · rintro ⟨first, others⟩ k inRange
      cases k with
      | zero => exact first
      | succ k => exact others k (by simpa using inRange)
    · exact fun every => ⟨every 0 (by simp), fun k inRange => every (k + 1) (by simpa using inRange)⟩

theorem failsFromThen_iff (all : AllAdmissible sends events) :
    FailsFromThen sends events ↔
      ∀ earlier event later, events = earlier ++ event :: later → FailsPartWay (sends earlier.length) event →
        put (fun k => sends (earlier.length + 1 + k)) later = [] := by
  constructor
  · rintro silent earlier event later rfl part
    have atIndex : (earlier ++ event :: later)[earlier.length]? = some event := by simp
    have rest : (earlier ++ event :: later).drop (earlier.length + 1) = later := by simp
    have tail := all.drop (earlier.length + 1)
    rw [rest] at tail
    rw [put_eq_nil_iff tail]
    intro k inRange
    exact silent earlier.length event atIndex ((failsPartWay_iff (all _ _ atIndex)).mp part) _ (by omega)
      (by simp; omega)
  · intro nothing k event atIndex broken j after inRange
    obtain ⟨bound, rfl⟩ := List.getElem?_eq_some_iff.mp atIndex
    have length : (events.take k).length = k := by rw [List.length_take]; omega
    have split : events = events.take k ++ events[k] :: events.drop (k + 1) := by simp
    have silent := nothing _ _ _ split (by rw [length]; exact (failsPartWay_iff (all _ _ atIndex)).mpr broken)
    rw [length, put_eq_nil_iff (all.drop (k + 1))] at silent
    have late := silent (j - (k + 1)) (by rw [List.length_drop]; omega)
    rwa [show k + 1 + (j - (k + 1)) = j by omega] at late

/-- As long as `send` keeps failing once it has failed within a line, a
connection only ever sees whole lines and a part of a last one. -/
theorem FailsFromThen.put_prefix (silent : FailsFromThen sends events) (all : AllAdmissible sends events) :
    ∃ sent : List ServerEvent, sent.Sublist events ∧
      put sends events <+: sent.flatMap fun event => event.to_json ++ [newline] := by
  induction events generalizing sends with
  | nil => exact ⟨[], .slnil, List.nil_prefix⟩
  | cons event events ih =>
    have tail : AllAdmissible (fun k => sends (k + 1)) events := fun k other atIndex => all (k + 1) other atIndex
    have silentTail : FailsFromThen (fun k => sends (k + 1)) events := fun k other atIndex broken j after inRange =>
      silent (k + 1) other atIndex broken (j + 1) (by omega) (by simpa using inRange)
    obtain ⟨sent, sublist, inside⟩ := ih silentTail tail
    rw [put]
    cases send_line_sent (all 0 event rfl) with
    | whole accepted returned positive steady =>
      refine ⟨event :: sent, sublist.cons_cons event, ?_⟩
      rw [accepted, List.flatMap_cons]
      exact (List.prefix_append_right_inj _).mpr inside
    | nothing accepted returned failed =>
      refine ⟨sent, sublist.cons event, ?_⟩
      rwa [accepted, List.nil_append]
    | part some_ below accepted returned broken =>
      have nothing : put (fun k => sends (k + 1)) events = [] := by
        rw [put_eq_nil_iff tail]
        rw [List.length_append, List.length_singleton] at broken
        exact fun k inRange => silent 0 event rfl broken (k + 1) (by omega) (by simpa using inRange)
      refine ⟨[event], by simp, ?_⟩
      rw [accepted, nothing, List.append_nil, List.flatMap_singleton]
      exact List.take_prefix _ _

/-- For any lines and results of `send`: a connection is given whole lines and a
part of a last one, with nothing after it, exactly when `send` keeps failing on it
once it has failed within a line. -/
theorem wholeLines_iff (all : AllAdmissible sends events) : WholeLines sends events ↔ FailsFromThen sends events :=
  ⟨fun whole => (failsFromThen_iff all).mpr whole.2,
    fun silent => ⟨silent.put_prefix all, (failsFromThen_iff all).mp silent⟩⟩

end Connection

section Run
variable {platform : Platform} {server : MonitorServer} {log : List Entry} {fd : ℕ} {events : List ServerEvent}
  {sends : ℕ → ℕ → ℤ}

/-- At any moment of a run, for the lines sent on a connection so far and any
results of `send`: the connection has been given whole lines and a part of a
last one, with nothing after it, exactly when `send` keeps failing on the
connection once it has failed within a line. -/
theorem connection_lines_whole_iff (_run : ServerRun platform server log) (_sofar : events <+: wire fd log)
    (all : AllAdmissible sends events) : WholeLines sends events ↔ FailsFromThen sends events := wholeLines_iff all

theorem admissible_of_small {size : ℕ} {results : ℕ → ℤ} (small : size < 2 ^ 31)
    (one : ∀ i, results i = -1 ∨ results i = 1) : Admissible size results := by
  intro i positive below
  have nonneg : 0 ≤ ∑ j ∈ range i, results j := sum_nonneg fun j inRange => (positive j (mem_range.mp inRange)).le
  have same : toInt (size - ∑ j ∈ range i, results j) = size - ∑ j ∈ range i, results j := by
    rw [toInt, Int.bmod_def]
    omega
  rw [same]
  rcases one i with failed | taken
  · exact Or.inl failed
  · rw [taken]
    exact Or.inr ⟨by decide, by omega⟩

/-- The dashboard's registration, answered with one byte before `send` fails for good. -/
theorem connection_lines_whole_iff_broken :
    ∃ platform server log sends, ServerRun platform server log ∧ (wire 4 log).length = 3 ∧
      (put sends (wire 4 log)).length = 1 ∧ WholeLines sends (wire 4 log) := by
  let platform : Platform := ⟨fun _ => false⟩
  let clock : ℕ → Tm := fun _ => ⟨2024, 1, 2, 3, 4, 5⟩
  let requests : List Request :=
    [.accept 4 ⟨(127, 0, 0, 1), 50000⟩,
     .line clock 0 (ascii "\x7b\"type\":\"register\",\"role\":\"dashboard\"\x7d")]
  let sends : ℕ → ℕ → ℤ := fun k i => if k = 0 ∧ i = 0 then 1 else -1
  have served : MonitorServer.servesTo platform requests (fun _ log =>
      (wire 4 log).length == 3 && (put sends (wire 4 log)).length == 1 &&
        (wire 4 log).all fun event => event.to_json.length < 1000) = true := by decide +kernel
  obtain ⟨server, log, run, tested⟩ := MonitorServer.run_of_servesTo served
  simp only [Bool.and_eq_true, beq_iff_eq, List.all_eq_true, decide_eq_true_eq] at tested
  have all : AllAdmissible sends (wire 4 log) := by
    intro k event atIndex
    have short := tested.2 event (List.mem_of_getElem? atIndex)
    refine admissible_of_small (by omega) fun i => ?_
    simp only [sends]
    split
    · exact Or.inr rfl
    · exact Or.inl rfl
  refine ⟨platform, server, log, sends, run, tested.1.1, tested.1.2,
    (connection_lines_whole_iff run (List.prefix_refl _) all).mpr ?_⟩
  intro k event _ _ j after _
  simp [sends, Nat.ne_zero_of_lt after]

/-- The first of three lines breaks off after one byte, and the other two are sent whole. -/
theorem broken_line_is_glued :
    ¬ ∀ platform server log, ServerRun platform server log → ∀ fd events, events <+: wire fd log →
      ∀ sends, AllAdmissible sends events → WholeLines sends events := by
  intro whole
  let platform : Platform := ⟨fun _ => false⟩
  let clock : ℕ → Tm := fun _ => ⟨2024, 1, 2, 3, 4, 5⟩
  let requests : List Request :=
    [.accept 4 ⟨(127, 0, 0, 1), 50000⟩,
     .line clock 0 (ascii "\x7b\"type\":\"register\",\"role\":\"dashboard\"\x7d")]
  have served : MonitorServer.servesTo platform requests (fun _ log =>
      (wire 4 log).length == 3 && (wire 4 log).all fun event =>
        decide (0 < event.to_json.length) && decide (event.to_json.length < 1000)) = true := by decide +kernel
  obtain ⟨server, log, run, tested⟩ := MonitorServer.run_of_servesTo served
  simp only [Bool.and_eq_true, beq_iff_eq, List.all_eq_true, decide_eq_true_eq] at tested
  obtain ⟨three, sizes⟩ := tested
  let sends : ℕ → ℕ → ℤ := fun k i => if k = 0 ∧ i ≠ 0 then -1 else 1
  have all : AllAdmissible sends (wire 4 log) := by
    intro k event atIndex
    have short := sizes event (List.mem_of_getElem? atIndex)
    refine admissible_of_small (by omega) fun i => ?_
    simp only [sends]
    split
    · exact Or.inl rfl
    · exact Or.inr rfl
  obtain ⟨event, events, shape⟩ := List.exists_cons_of_length_pos (show 0 < (wire 4 log).length by omega)
  have first : (wire 4 log)[0]? = some event := by rw [shape]; rfl
  have long := (sizes event (List.mem_of_getElem? first)).1
  have silent := (failsFromThen_iff all).mpr (whole platform server log run 4 _ (List.prefix_refl _) sends all).2
  have broken : BreaksOff (event.to_json.length + 1) (sends 0) :=
    ⟨0, fun j inRange => by rw [Nat.le_zero.mp inRange]; decide, by simp [sends]; omega, by decide⟩
  exact absurd (silent 0 event first broken 1 (by decide) (by omega)) (by decide)

end Run

end SysNetMon
