import Mathlib.Data.List.Chain
import Mathlib.Data.List.Flatten
import Mathlib.Data.List.Infix
import Mathlib.Data.List.Perm.Basic
import Mathlib.Data.List.TakeWhile

/-!
Words that several writers put on one channel piece by piece: when the channel
carries the words whole, one after another.
-/

namespace Interleaving
variable {ι α : Type*} [DecidableEq ι]

/-- What one writer has written, of letters that carry their writers. -/
def share (i : ι) (letters : List (ι × α)) : List α := (letters.filter fun p => p.1 = i).map Prod.snd

/-- Nobody writes between two letters of another writer. -/
def Apart (writers : List ι) : Prop := ∀ i j, i ≠ j → ¬ [i, j, i].Sublist writers

/-- The letters of pieces, each with its writer. -/
def letters (pieces : List (ι × List α)) : List (ι × α) := pieces.flatMap fun p => p.2.map (Prod.mk p.1)

section Share
variable {i j : ι} {s t : List (ι × α)}

@[simp] theorem share_append : share i (s ++ t) = share i s ++ share i t := by
  rw [share, List.filter_append, List.map_append]
  rfl

theorem share_of_forall (own : ∀ p ∈ s, p.1 = i) : share i s = s.map Prod.snd := by
  rw [share, List.filter_eq_self.mpr fun p member => decide_eq_true (own p member)]

theorem share_eq_nil_iff : share i s = [] ↔ ∀ p ∈ s, p.1 ≠ i := by
  simp [share, List.filter_eq_nil_iff]

theorem mem_of_mem_share {c : α} (member : c ∈ share i s) : (i, c) ∈ s := by
  obtain ⟨⟨k, d⟩, inside, rfl⟩ := List.mem_map.mp member
  obtain ⟨inS, is⟩ := List.mem_filter.mp inside
  rwa [← of_decide_eq_true is]

end Share

omit [DecidableEq ι] in
theorem Apart.of_sublist {s t : List ι} (apart : Apart t) (sublist : s.Sublist t) : Apart s :=
  fun i j ne between => apart i j ne (between.trans sublist)

/-- A writer that has begun goes on to the end of its word. -/
theorem Apart.block {s : List (ι × α)} {p : ι × α} (apart : Apart ((p :: s).map Prod.fst)) :
    ∀ q ∈ (p :: s).dropWhile fun q => q.1 = p.1, q.1 ≠ p.1 := by
  intro q member same
  cases rest : (p :: s).dropWhile fun q => q.1 = p.1 with
  | nil =>
    rw [rest] at member
    cases member
  | cons r later =>
    have other : r.1 ≠ p.1 := by
      have stopped := List.head?_dropWhile_not (fun q : ι × α => decide (q.1 = p.1)) (p :: s)
      rw [rest] at stopped
      simpa using stopped
    rw [rest] at member
    have inLater : q ∈ later := (List.mem_cons.mp member).resolve_left fun is => other (is ▸ same)
    have tail : (r :: later).Sublist s := by
      have whole := List.takeWhile_append_dropWhile (p := fun q : ι × α => decide (q.1 = p.1)) (l := p :: s)
      rw [rest, List.takeWhile_cons_of_pos (by simp), List.cons_append, List.cons.injEq] at whole
      rw [← whole.2]
      exact List.sublist_append_right _ _
    refine apart p.1 r.1 (Ne.symm other) ?_
    have pair : [r.1, p.1].Sublist ((r :: later).map Prod.fst) := by
      rw [← same, List.map_cons]
      exact (List.singleton_sublist.mpr (List.mem_map_of_mem inLater)).cons_cons _
    exact (pair.trans (tail.map _)).cons_cons _

section Words
variable {w : ι → List α}

/-- The letters are those of the words of the writers `ids`. -/
structure Writes (w : ι → List α) (ids : List ι) (s : List (ι × α)) : Prop where
  distinct : ids.Nodup
  writer : ∀ p ∈ s, p.1 ∈ ids
  word : ∀ i ∈ ids, share i s = w i

section Writes
variable {ids : List ι} {s rest : List (ι × α)} {i : ι}

theorem Writes.eq_nil (writes : Writes w [] s) : s = [] :=
  List.eq_nil_iff_forall_not_mem.mpr fun p member => absurd (writes.writer p member) List.not_mem_nil

/-- What is left without one writer is written by the others. -/
theorem Writes.erase (writes : Writes w ids s) (sub : rest ⊆ s) (absent : ∀ q ∈ rest, q.1 ≠ i)
    (kept : ∀ j ≠ i, share j rest = share j s) : Writes w (ids.erase i) rest := by
  refine ⟨writes.distinct.erase _, fun q member => ?_, fun j inOthers => ?_⟩
  · exact (List.mem_erase_of_ne (absent q member)).mpr (writes.writer q (sub member))
  · obtain ⟨ne, inside⟩ := (List.Nodup.mem_erase_iff writes.distinct).mp inOthers
    rw [kept j ne, writes.word j inside]

/-- A last line is by one writer: it holds one delimiter, so nobody else can
have ended a word in it. -/
theorem Writes.last_line {stop : α} (lines : ∀ i, ∃ body, w i = body ++ [stop] ∧ stop ∉ body)
    {front inner : List (ι × α)} (writes : Writes w ids (front ++ (inner ++ [(i, stop)])))
    (free : stop ∉ inner.map Prod.snd) : ∀ q ∈ inner ++ [(i, stop)], q.1 = i := by
  intro q member
  by_contra ne
  obtain ⟨body, wordOf, -⟩ := lines q.1
  have word := writes.word q.1 (writes.writer q (List.mem_append_right _ member))
  have some_ : share q.1 (inner ++ [(i, stop)]) ≠ [] := fun none => share_eq_nil_iff.mp none q member rfl
  have final := congrArg List.getLast? word
  rw [share_append, List.getLast?_append_of_ne_nil _ some_, wordOf, List.getLast?_concat] at final
  have inside := mem_of_mem_share (List.mem_of_getLast? final)
  rcases List.mem_append.mp inside with early | late
  · exact free (List.mem_map_of_mem early)
  · exact ne (congrArg Prod.fst (List.mem_singleton.mp late))

end Writes

/-- Writers that keep apart write their words one after another. -/
theorem Writes.exists_order {ids : List ι} {s : List (ι × α)} (writes : Writes w ids s) (some : ∀ i, w i ≠ [])
    (apart : Apart (s.map Prod.fst)) : ∃ order : List ι, order.Perm ids ∧ s.map Prod.snd = order.flatMap w := by
  induction n : ids.length generalizing ids s with
  | zero =>
    rw [List.length_eq_zero_iff] at n
    subst n
    exact ⟨[], .nil, by rw [writes.eq_nil]; rfl⟩
  | succ n ih =>
    cases s with
    | nil =>
      obtain ⟨i, inIds⟩ := List.exists_mem_of_ne_nil ids (by rintro rfl; cases n)
      exact absurd (writes.word i inIds).symm (some i)
    | cons p s =>
      have own := apart.block
      have inIds := writes.writer p List.mem_cons_self
      have split := List.takeWhile_append_dropWhile (p := fun q : ι × α => decide (q.1 = p.1)) (l := p :: s)
      generalize block_ : (p :: s).takeWhile (fun q => decide (q.1 = p.1)) = block at split
      generalize (p :: s).dropWhile (fun q => decide (q.1 = p.1)) = rest at split own
      have inBlock : ∀ q ∈ block, q.1 = p.1 := fun q member => by
        rw [← block_] at member
        exact of_decide_eq_true (List.mem_takeWhile_imp (p := fun q : ι × α => decide (q.1 = p.1)) member)
      have word : block.map Prod.snd = w p.1 := by
        rw [← writes.word p.1 inIds, ← split, share_append, share_of_forall inBlock, share_eq_nil_iff.mpr own,
          List.append_nil]
      have others : Writes w (ids.erase p.1) rest := by
        refine writes.erase (by rw [← split]; exact List.subset_append_right _ _) own fun j ne => ?_
        have none : share j block = [] := share_eq_nil_iff.mpr fun q member is => ne (is ▸ inBlock q member)
        rw [← split, share_append, none, List.nil_append]
      have apartRest : Apart (rest.map Prod.fst) :=
        apart.of_sublist (by rw [← split]; exact (List.sublist_append_right block rest).map _)
      obtain ⟨order, perm, flat⟩ := ih others apartRest (by rw [List.length_erase_of_mem inIds, n]; rfl)
      refine ⟨p.1 :: order, (perm.cons _).trans (List.perm_cons_erase inIds).symm, ?_⟩
      rw [← split, List.map_append, word, flat, List.flatMap_cons]

omit [DecidableEq ι] in
/-- Letters of one writer may follow those of others. -/
theorem Apart.append {s t : List ι} {i : ι} (apart : Apart s) (absent : i ∉ s) (own : ∀ j ∈ t, j = i) :
    Apart (s ++ t) := by
  intro a b ne between
  obtain ⟨first, second, split, inFirst, inSecond⟩ := List.sublist_append_iff.mp between
  have same {k : ι} (member : k ∈ second) : k = i := own k (inSecond.subset member)
  rcases first with _ | ⟨x, _ | ⟨y, _ | ⟨z, later⟩⟩⟩
  · subst split
    exact ne ((same (by simp)).trans (same (by simp : b ∈ _)).symm)
  · cases split
    exact ne ((same (by simp)).trans (same (by simp : b ∈ _)).symm)
  · cases split
    exact absurd (inFirst.subset List.mem_cons_self) (same (by simp : a ∈ _) ▸ absent)
  · simp only [List.cons_append, List.cons.injEq, List.nil_eq, List.append_eq_nil_iff] at split
    obtain ⟨rfl, rfl, rfl, rfl, -⟩ := split
    exact apart a b ne inFirst

/-- If each word ends with its only delimiter and no word is the end of another
one, then writers whose words come out whole kept apart. -/
theorem Writes.apart {stop : α} (lines : ∀ i, ∃ body, w i = body ++ [stop] ∧ stop ∉ body)
    (unmixed : ∀ i j, w i <:+ w j → w i = w j) {ids : List ι} {s : List (ι × α)} (writes : Writes w ids s)
    (order : List (List α)) (perm : order.Perm (ids.map w)) (flat : s.map Prod.snd = order.flatten) :
    Apart (s.map Prod.fst) := by
  induction n : ids.length generalizing ids s order with
  | zero =>
    rw [List.length_eq_zero_iff] at n
    subst n
    rw [writes.eq_nil]
    exact fun i j _ between => by cases between
  | succ n ih =>
    obtain rfl | ⟨order, v, rfl⟩ := List.eq_nil_or_concat order
    · have length := perm.length_eq
      simp [n] at length
    rw [List.concat_eq_append] at perm flat
    obtain ⟨m, -, isWord⟩ := List.mem_map.mp (perm.subset List.mem_concat_self)
    obtain ⟨body, wordOf, free⟩ := lines m
    rw [List.flatten_append, List.flatten_singleton] at flat
    obtain ⟨front, block, rfl, frontIs, blockIs⟩ := List.map_eq_append_iff.mp flat
    have ends := blockIs
    rw [← isWord, wordOf] at ends
    obtain ⟨inner, last, rfl, innerIs, lastIs⟩ := List.map_eq_append_iff.mp ends
    obtain ⟨⟨i, c⟩, rfl, isStop⟩ := List.map_eq_singleton_iff.mp lastIs
    obtain rfl : stop = c := isStop.symm
    have inIds : i ∈ ids := writes.writer (i, stop) (by simp)
    have alone := writes.last_line lines (innerIs ▸ free)
    have whole := writes.word i inIds
    rw [share_append, share_of_forall alone, blockIs, ← isWord] at whole
    have same := unmixed m i (by rw [← whole]; exact List.suffix_append _ _)
    have none : share i front = [] := by
      rw [← same] at whole
      simpa using whole
    have absent := share_eq_nil_iff.mp none
    have others : Writes w (ids.erase i) front := by
      refine writes.erase (List.subset_append_left _ _) absent fun j ne => ?_
      have nothing : share j (inner ++ [(i, stop)]) = [] :=
        share_eq_nil_iff.mpr fun q member is => ne (is ▸ alone q member)
      rw [share_append, nothing, List.append_nil]
    have permOthers : order.Perm ((ids.erase i).map w) := by
      have step := (List.perm_append_singleton v order).symm.trans (perm.trans ((List.perm_cons_erase inIds).map w))
      rw [List.map_cons, ← same, isWord] at step
      exact step.cons_inv
    have apartFront := ih others order permOthers frontIs (by rw [List.length_erase_of_mem inIds, n]; rfl)
    rw [List.map_append]
    refine apartFront.append (i := i) (fun member => ?_) fun j member => ?_
    · obtain ⟨q, inFront, is⟩ := List.mem_map.mp member
      exact absent q inFront is
    · obtain ⟨q, inBlock, rfl⟩ := List.mem_map.mp member
      exact alone q inBlock

end Words

section Pieces
variable {pieces : List (ι × List α)}

omit [DecidableEq ι] in
theorem map_snd_letters : (letters pieces).map Prod.snd = pieces.flatMap Prod.snd := by
  simp [letters, List.map_flatMap, Function.comp_def]

theorem share_letters (i : ι) :
    share i (letters pieces) = (pieces.filter fun p => p.1 = i).flatMap Prod.snd := by
  induction pieces with
  | nil => rfl
  | cons p pieces ih =>
    rw [letters, List.flatMap_cons, share_append, List.filter_cons]
    change _ ++ share i (letters pieces) = _
    rw [ih]
    by_cases own : p.1 = i
    · rw [share_of_forall (by simp [own])]
      simp [own, Function.comp_def]
    · rw [share_eq_nil_iff.mpr (by simp [own])]
      simp [own]

omit [DecidableEq ι] in
theorem writers_letters (p : ι × List α) (pieces : List (ι × List α)) :
    (letters (p :: pieces)).map Prod.fst = List.replicate p.2.length p.1 ++ (letters pieces).map Prod.fst := by
  rw [letters, List.flatMap_cons, List.map_append, List.map_map]
  simp [letters, Function.comp_def]

omit [DecidableEq ι] in
theorem writers_sublist (some : ∀ p ∈ pieces, p.2 ≠ []) :
    (pieces.map Prod.fst).Sublist ((letters pieces).map Prod.fst) := by
  induction pieces with
  | nil => exact .slnil
  | cons p pieces ih =>
    rw [writers_letters, List.map_cons, ← List.singleton_append]
    refine List.Sublist.append (List.singleton_sublist.mpr ?_) (ih fun q member => some q (List.mem_cons_of_mem p member))
    rw [List.mem_replicate]
    exact ⟨fun none => some p List.mem_cons_self (List.length_eq_zero_iff.mp none), rfl⟩

omit [DecidableEq ι] in
/-- Writers that alternate in the letters alternate in the pieces. -/
theorem sublist_writers {l : List ι} (alternate : l.IsChain (· ≠ ·)) (inside : l.Sublist ((letters pieces).map Prod.fst)) :
    l.Sublist (pieces.map Prod.fst) := by
  induction pieces generalizing l with
  | nil => exact inside
  | cons p pieces ih =>
    rw [writers_letters, List.sublist_append_iff] at inside
    obtain ⟨first, second, rfl, inFirst, inSecond⟩ := inside
    obtain ⟨k, -, rfl⟩ := List.sublist_replicate_iff.mp inFirst
    have rest := ih alternate.right_of_append inSecond
    rcases k with _ | _ | k
    · exact rest.cons p.1
    · exact rest.cons_cons p.1
    · rw [List.replicate_succ, List.replicate_succ, List.cons_append, List.cons_append, List.isChain_cons_cons]
        at alternate
      exact absurd rfl alternate.1

omit [DecidableEq ι] in
/-- Pieces that are not empty are apart exactly when their letters are. -/
theorem apart_letters_iff (some : ∀ p ∈ pieces, p.2 ≠ []) :
    Apart ((letters pieces).map Prod.fst) ↔ Apart (pieces.map Prod.fst) := by
  refine ⟨fun apart => apart.of_sublist (writers_sublist some), fun apart i j ne between => ?_⟩
  exact apart i j ne (sublist_writers (by simp [ne, Ne.symm ne]) between)

end Pieces

end Interleaving
