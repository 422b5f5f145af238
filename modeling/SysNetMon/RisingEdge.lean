import Mathlib.Data.List.AList

/-!
Rising edges of boolean signals whose last levels are kept in one map, when
several readings are taken at a time and some of them share a key.
-/

namespace RisingEdge
variable {κ : Type*} [DecidableEq κ]

/-- The level that the memory holds for a key. A key not seen yet is low. -/
def level (memory : AList fun _ : κ => Bool) (key : κ) : Bool := (memory.lookup key).getD false

/-- One pass over the readings: the memory it leaves, and the key of every
reading that is high where the memory was low. -/
def sweep : List (κ × Bool) → AList (fun _ : κ => Bool) → AList (fun _ : κ => Bool) × List κ
  | [], memory => (memory, [])
  | reading :: readings, memory =>
    let rest := sweep readings (memory.insert reading.1 reading.2)
    (rest.1, (if reading.2 && !level memory reading.1 then [reading.1] else []) ++ rest.2)

/-- All readings under the key agree. -/
def Shows (readings : List (κ × Bool)) (key : κ) (value : Bool) : Prop :=
  ∀ reading ∈ readings, reading.1 = key → reading.2 = value

variable {readings : List (κ × Bool)} {memory : AList fun _ : κ => Bool} {key : κ} {value : Bool}

theorem level_insert : level (memory.insert key value) key = value := by
  rw [level, AList.lookup_insert, Option.getD_some]

theorem level_insert_ne {other : κ} (ne : key ≠ other) : level (memory.insert other value) key = level memory key := by
  rw [level, AList.lookup_insert_ne ne, level]

omit [DecidableEq κ] in
theorem Shows.tail {reading : κ × Bool} (shows : Shows (reading :: readings) key value) : Shows readings key value :=
  fun other member => shows other (List.mem_cons_of_mem _ member)

/-- After a pass the memory holds the level of each key that was read. -/
theorem level_sweep (shows : Shows readings key value) :
    level (sweep readings memory).1 key = if key ∈ readings.map Prod.fst then value else level memory key := by
  induction readings generalizing memory with
  | nil => rfl
  | cons reading readings ih =>
    simp only [sweep, ih shows.tail, List.map_cons, List.mem_cons]
    by_cases here : key = reading.1
    · have read := shows reading List.mem_cons_self here.symm
      subst here
      rw [level_insert, read, ite_self, if_pos (Or.inl rfl)]
    · rw [level_insert_ne here]
      simp [here]

/-- A key that is not read keeps its place in the memory. -/
theorem lookup_sweep_of_not_mem (absent : key ∉ readings.map Prod.fst) :
    (sweep readings memory).1.lookup key = memory.lookup key := by
  induction readings generalizing memory with
  | nil => rfl
  | cons reading readings ih =>
    rw [List.map_cons, List.mem_cons, not_or] at absent
    rw [sweep, ih absent.2, AList.lookup_insert_ne absent.1]

/-- A key whose readings agree with the memory raises nothing. -/
theorem count_sweep_settled (shows : Shows readings key value) (settled : level memory key = value) :
    (sweep readings memory).2.countP (fun raised => decide (raised = key)) = 0 := by
  induction readings generalizing memory with
  | nil => rfl
  | cons reading readings ih =>
    simp only [sweep, List.countP_append]
    by_cases here : reading.1 = key
    · have read := shows reading List.mem_cons_self here
      have later := @ih (memory.insert reading.1 reading.2) shows.tail (by rw [here, level_insert, read])
      rw [later, here, settled, read]
      simp
    · have later := @ih (memory.insert reading.1 reading.2) shows.tail
        (by rw [level_insert_ne (Ne.symm here), settled])
      rw [later]
      split <;> simp [here]

/-- A key that is read raises once if it rises, however often it is read. -/
theorem count_sweep (shows : Shows readings key value) :
    (sweep readings memory).2.countP (fun raised => decide (raised = key)) =
      if key ∈ readings.map Prod.fst then (value && !level memory key).toNat else 0 := by
  induction readings generalizing memory with
  | nil => rfl
  | cons reading readings ih =>
    simp only [sweep, List.countP_append, List.map_cons, List.mem_cons]
    by_cases here : reading.1 = key
    · have read := shows reading List.mem_cons_self here
      subst here
      rw [count_sweep_settled shows.tail (by rw [level_insert, read]), if_pos (Or.inl rfl), read]
      cases value && !level memory reading.1 <;> simp
    · have first : (if reading.2 && !level memory reading.1 then [reading.1] else []).countP
          (fun raised => decide (raised = key)) = 0 := by
        split <;> simp [here]
      rw [first, ih shows.tail, level_insert_ne (Ne.symm here), Nat.zero_add]
      simp [Ne.symm here]

/-- Where a signal rises, starting after the level `previous`. -/
def rising (previous : Bool) : List Bool → List Bool
  | [] => []
  | current :: levels => (current && !previous) :: rising current levels

theorem rising_concat (previous : Bool) (levels : List Bool) (current : Bool) :
    rising previous (levels ++ [current]) =
      rising previous levels ++ [current && !levels.getLast?.getD previous] := by
  induction levels generalizing previous with
  | nil => rfl
  | cons first levels ih =>
    rw [List.cons_append, rising, ih, rising, List.getLast?_cons]
    rfl

theorem getElem?_rising (previous : Bool) (levels : List Bool) (i : ℕ) :
    (rising previous levels)[i]? =
      levels[i]?.map fun current => current && !if i = 0 then previous else levels[i - 1]?.getD false := by
  induction levels generalizing previous i with
  | nil => rfl
  | cons first levels ih =>
    cases i with
    | zero => rfl
    | succ i =>
      simp only [rising, List.getElem?_cons_succ, Nat.add_sub_cancel, Nat.succ_ne_zero, if_false]
      rw [ih]
      cases i <;> rfl

end RisingEdge
