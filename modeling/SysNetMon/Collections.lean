import Mathlib.Data.List.AList
import Mathlib.Data.List.DropRight
import Mathlib.Data.List.Induction

/-!
Collections that grow: maps filled by inserting records one after another, each
under a key of its own, and lists of which only the last items are kept.
-/

namespace KeyedMap
variable {κ α β : Type*} [DecidableEq κ] {key : α → κ} {value : α → β}

def fill (key : α → κ) (value : α → β) (start : AList fun _ : κ => β) (records : List α) : AList fun _ : κ => β :=
  records.foldl (fun map r => map.insert (key r) (value r)) start

theorem fill_cons (start : AList fun _ : κ => β) (r : α) (records : List α) :
    fill key value start (r :: records) = fill key value (start.insert (key r) (value r)) records := rfl

/-- A key that no record has is left as it was. -/
theorem lookup_fill_of_ne {start : AList fun _ : κ => β} {records : List α} {k : κ}
    (absent : ∀ r ∈ records, key r ≠ k) : (fill key value start records).lookup k = start.lookup k := by
  induction records generalizing start with
  | nil => rfl
  | cons r records ih =>
    rw [fill_cons, ih fun other member => absent other (List.mem_cons_of_mem r member)]
    exact AList.lookup_insert_ne (absent r List.mem_cons_self).symm

/-- Under the key of a record that no other record shares, the record is found. -/
theorem lookup_fill_of_mem {start : AList fun _ : κ => β} {records : List α} {r : α} (member : r ∈ records)
    (unique : ∀ other ∈ records, key other = key r → other = r) :
    (fill key value start records).lookup (key r) = some (value r) := by
  induction records generalizing start with
  | nil => cases member
  | cons first records ih =>
    have rest : ∀ other ∈ records, key other = key r → other = r := fun other inRest =>
      unique other (List.mem_cons_of_mem first inRest)
    rw [fill_cons]
    by_cases later : r ∈ records
    · exact ih later rest
    · have here : r = first := (List.mem_cons.mp member).resolve_right later
      have absent : ∀ other ∈ records, key other ≠ key r := fun other inRest same =>
        later (rest other inRest same ▸ inRest)
      rw [lookup_fill_of_ne absent, ← here, AList.lookup_insert]

/-- A map whose entries stand under the keys of their records is refilled from
its records, in any order. -/
theorem lookup_fill_entries {map : AList fun _ : κ => α} (keyed : ∀ k r, map.lookup k = some r → key r = k)
    {records : List α} (same : ∀ r, r ∈ records ↔ ∃ k, map.lookup k = some r) (k : κ) :
    (fill key value ∅ records).lookup k = (map.lookup k).map value := by
  cases found : map.lookup k with
  | none =>
    refine lookup_fill_of_ne fun r member other => ?_
    obtain ⟨k', atKey⟩ := (same r).mp member
    rw [← other, keyed k' r atKey, atKey] at found
    cases found
  | some r =>
    have unique : ∀ other ∈ records, key other = key r → other = r := by
      intro other member sameKey
      obtain ⟨k', atKey⟩ := (same other).mp member
      rw [← keyed k' other atKey, sameKey, keyed k r found, found] at atKey
      exact (Option.some.inj atKey).symm
    rw [← keyed k r found]
    exact lookup_fill_of_mem ((same r).mpr ⟨k, found⟩) unique

/-- Each record is found under its key after filling exactly when records that
share a key have the same value. -/
theorem lookup_fill_all_iff {start : AList fun _ : κ => β} {records : List α} :
    (∀ r ∈ records, (fill key value start records).lookup (key r) = some (value r)) ↔
      records.Pairwise fun r r' => key r = key r' → value r = value r' := by
  induction records generalizing start with
  | nil => simp
  | cons r records ih =>
    rw [fill_cons, List.forall_mem_cons, List.pairwise_cons, ih, and_congr_left_iff]
    intro pairwise
    have found := (@ih (start.insert (key r) (value r))).mpr pairwise
    constructor
    · intro first r' member same
      have later := found r' member
      rw [← same, first] at later
      exact Option.some.inj later
    · intro agree
      by_cases shared : ∃ r' ∈ records, key r' = key r
      · obtain ⟨r', member, same⟩ := shared
        have later := found r' member
        rw [same] at later
        rw [later, agree r' member same.symm]
      · rw [lookup_fill_of_ne fun r' member same => shared ⟨r', member, same⟩, AList.lookup_insert]

/-- Inserting a record into a map of the last records. -/
theorem lookup_insert_last {map : AList fun _ : κ => β} {records : List α}
    (shows : ∀ k, map.lookup k = ((records.filter fun r => key r = k).getLast?).map value) (r : α) (k : κ) :
    (map.insert (key r) (value r)).lookup k = (((records ++ [r]).filter fun r => key r = k).getLast?).map value := by
  rw [List.filter_append, List.filter_singleton]
  by_cases same : key r = k
  · subst same
    rw [AList.lookup_insert, decide_eq_true rfl, cond_true, List.getLast?_concat]
    rfl
  · rw [AList.lookup_insert_ne (Ne.symm same), decide_eq_false same, cond_false, List.append_nil, shows]

/-- A map filled from records shows the last record of each key. -/
theorem lookup_fill_last (records : List α) (k : κ) :
    (fill key value ∅ records).lookup k = ((records.filter fun r => key r = k).getLast?).map value := by
  induction records using List.reverseRecOn generalizing k with
  | nil => exact AList.lookup_empty k
  | append_singleton records r ih =>
    rw [fill, List.foldl_append]
    exact lookup_insert_last ih r k

end KeyedMap

namespace Window
variable {α β : Type*}

theorem length_rtake (l : List α) (n : ℕ) : (l.rtake n).length = min n l.length := by
  rw [List.rtake, List.length_drop]
  omega

theorem rtake_of_length_le {l : List α} {n : ℕ} (short : l.length ≤ n) : l.rtake n = l := by
  rw [List.rtake, Nat.sub_eq_zero_of_le short, List.drop_zero]

theorem filterMap_cons (f : α → Option β) (a : α) (l : List α) :
    (a :: l).filterMap f = (f a).toList ++ l.filterMap f := by
  rw [List.filterMap_cons]
  cases f a <;> rfl

theorem getLastD_append (l m : List α) (last : α) : (l ++ m).getLastD last = m.getLastD (l.getLastD last) := by
  rw [List.getLastD_eq_getLast?, List.getLastD_eq_getLast?, List.getLast?_append, List.getLastD_eq_getLast?]
  cases m.getLast? <;> rfl

/-- What has left the window does not come back. -/
theorem rtake_append (l m : List α) (n : ℕ) : (l.rtake n ++ m).rtake n = (l ++ m).rtake n := by
  have shape : l.rtake n ++ m = (l ++ m).drop (l.length - n) := by
    rw [List.rtake, List.drop_append_of_le_length (Nat.sub_le _ _)]
  rw [shape, List.rtake, List.rtake, List.drop_drop, List.length_drop, List.length_append]
  congr 1
  omega

/-- A window that is cut by one item when it has become too long. -/
theorem push_rtake (l : List α) (x : α) (n : ℕ) :
    (if n < (l.rtake n ++ [x]).length then (l.rtake n ++ [x]).tail else l.rtake n ++ [x]) = (l ++ [x]).rtake n := by
  have bound : (l.rtake n ++ [x]).length ≤ n + 1 := by
    rw [List.length_append, length_rtake, List.length_singleton]
    omega
  rw [← rtake_append]
  generalize l.rtake n ++ [x] = window at bound ⊢
  split
  · have one : window.length - n = 1 := by omega
    rw [List.rtake, one, List.drop_one]
  · rename_i short
    exact (rtake_of_length_le (not_lt.mp short)).symm

end Window
