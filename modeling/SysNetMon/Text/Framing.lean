import Mathlib.Data.List.Basic

/-!
Cutting a stream at a delimiter while it arrives: what is cut off piece by
piece is what cutting the whole stream yields.
-/

namespace Framing
variable {α : Type*} [DecidableEq α] {stop : α}

/-- The piece before the first delimiter and what follows that delimiter. -/
def cut (stop : α) : List α → Option (List α × List α)
  | [] => none
  | c :: cs => if c = stop then some ([], cs) else (cut stop cs).map fun m => (c :: m.1, m.2)

/-- The pieces that a delimiter ends. -/
def segments (stop : α) (s : List α) : List (List α) := (s.splitOn stop).dropLast

/-- What follows the last delimiter. -/
def unfinished (stop : α) (s : List α) : List α := (s.splitOn stop).getLastD []

theorem cut_eq_none {s : List α} (none : cut stop s = none) : stop ∉ s := by
  induction s with
  | nil => exact List.not_mem_nil
  | cons c cs ih =>
    unfold cut at none
    split at none
    · cases none
    · rename_i other
      rw [Option.map_eq_none_iff] at none
      exact List.not_mem_cons_of_ne_of_not_mem (Ne.symm other) (ih none)

theorem cut_eq_some {s segment rest : List α} (some : cut stop s = some (segment, rest)) :
    s = segment ++ stop :: rest ∧ stop ∉ segment := by
  induction s generalizing segment with
  | nil => cases some
  | cons c cs ih =>
    unfold cut at some
    split at some
    · rename_i is
      cases some
      exact ⟨congrArg (· :: rest) is, List.not_mem_nil⟩
    · rename_i other
      obtain ⟨⟨before, after⟩, first, same⟩ := Option.map_eq_some_iff.mp some
      cases same
      obtain ⟨shape, absent⟩ := ih first
      exact ⟨congrArg (c :: ·) shape, List.not_mem_cons_of_ne_of_not_mem (Ne.symm other) absent⟩

theorem cut_of_not_mem {segment : List α} (absent : stop ∉ segment) (rest : List α) :
    cut stop (segment ++ stop :: rest) = some (segment, rest) := by
  induction segment with
  | nil => exact if_pos rfl
  | cons c segment ih =>
    rw [List.mem_cons, not_or] at absent
    rw [List.cons_append, cut, if_neg (Ne.symm absent.1), ih absent.2]
    rfl

theorem length_of_cut {s segment rest : List α} (some : cut stop s = some (segment, rest)) :
    rest.length < s.length := by
  rw [(cut_eq_some some).1, List.length_append, List.length_cons]
  omega

theorem segments_of_not_mem {s : List α} (absent : stop ∉ s) : segments stop s = [] := by
  rw [segments, List.splitOn_eq_singleton absent]
  rfl

theorem unfinished_of_not_mem {s : List α} (absent : stop ∉ s) : unfinished stop s = s := by
  rw [unfinished, List.splitOn_eq_singleton absent]
  rfl

theorem segments_cut {segment : List α} (absent : stop ∉ segment) (rest : List α) :
    segments stop (segment ++ stop :: rest) = segment :: segments stop rest := by
  rw [segments, List.splitOn_append_cons_self_of_not_mem absent, List.dropLast_cons_of_ne_nil (List.splitOn_ne_nil _ _)]
  rfl

theorem unfinished_cut {segment : List α} (absent : stop ∉ segment) (rest : List α) :
    unfinished stop (segment ++ stop :: rest) = unfinished stop rest := by
  rw [unfinished, List.splitOn_append_cons_self_of_not_mem absent, unfinished]
  obtain ⟨piece, pieces, shape⟩ := List.exists_cons_of_ne_nil (List.splitOn_ne_nil stop rest)
  rw [shape]
  rfl

/-- A stream is without delimiters, or has a first piece and goes on. -/
theorem pieces_induction (stop : α) {motive : List α → Prop} (free : ∀ s, stop ∉ s → motive s)
    (more : ∀ segment rest, stop ∉ segment → motive rest → motive (segment ++ stop :: rest)) (s : List α) :
    motive s := by
  induction length : s.length using Nat.strongRecOn generalizing s with
  | ind n ih =>
    by_cases member : stop ∈ s
    · obtain ⟨segment, rest, rfl, absent⟩ := List.eq_append_cons_of_mem member
      refine more segment rest absent (ih rest.length ?_ rest rfl)
      rw [← length, List.length_append, List.length_cons]
      omega
    · exact free s member

/-- Cutting can be resumed: what arrives later is cut together with the
unfinished piece. -/
theorem segments_append (s t : List α) :
    segments stop (s ++ t) = segments stop s ++ segments stop (unfinished stop s ++ t) := by
  induction s using pieces_induction stop with
  | free s absent => rw [segments_of_not_mem absent, unfinished_of_not_mem absent, List.nil_append]
  | more segment rest absent ih =>
    rw [List.append_assoc, List.cons_append, segments_cut absent, segments_cut absent, unfinished_cut absent, ih,
      List.cons_append]

theorem unfinished_append (s t : List α) :
    unfinished stop (s ++ t) = unfinished stop (unfinished stop s ++ t) := by
  induction s using pieces_induction stop with
  | free s absent => rw [unfinished_of_not_mem absent]
  | more segment rest absent ih =>
    rw [List.append_assoc, List.cons_append, unfinished_cut absent, unfinished_cut absent, ih]

theorem not_mem_unfinished (s : List α) : stop ∉ unfinished stop s := by
  induction s using pieces_induction stop with
  | free s absent => rwa [unfinished_of_not_mem absent]
  | more segment rest absent ih => rwa [unfinished_cut absent]

theorem unfinished_last {last : List α} (absent : stop ∉ last) (s : List α) :
    unfinished stop (s ++ stop :: last) = last := by
  rw [unfinished_append, unfinished_cut (not_mem_unfinished s), unfinished_of_not_mem absent]

/-- The last delimiter cuts a text in only one way. -/
theorem cut_last_inj {s s' last last' : List α} (absent : stop ∉ last) (absent' : stop ∉ last')
    (same : s ++ stop :: last = s' ++ stop :: last') : s = s' ∧ last = last' := by
  have lasts : last = last' := by rw [← unfinished_last absent s, same, unfinished_last absent' s']
  rw [lasts] at same
  exact ⟨List.append_cancel_right same, lasts⟩

end Framing
