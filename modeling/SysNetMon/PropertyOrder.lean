import Mathlib.Data.List.Nodup
import Mathlib.Order.Basic
import Mathlib.Algebra.Order.Group.Nat

/-!
The order in which an object lists its keys, where some of them have a number:
first those, by their numbers, then the others as they were made. What a key's
place in this order is, and what more keys do to it.
-/

namespace PropertyOrder
variable {α : Type*} (index : α → Option ℕ)

/-- The keys that have a number, in its order. -/
def numbered (keys : List α) : List α :=
  (keys.filter fun key => (index key).isSome).mergeSort fun key other => (index key).getD 0 ≤ (index other).getD 0

def unnumbered (keys : List α) : List α := keys.filter fun key => (index key).isNone

/-- The keys in the order in which they are listed, from that in which they were made. -/
def ownKeys (keys : List α) : List α := numbered index keys ++ unnumbered index keys

/-- A key with a number goes before every key without one, or with a larger one. -/
def Before (key other : α) : Prop :=
  match index key, index other with
  | none, _ => False
  | some _, none => True
  | some n, some m => n < m

instance (key other : α) : Decidable (Before index key other) := by
  unfold Before
  split
  · exact inferInstanceAs (Decidable False)
  · exact inferInstanceAs (Decidable True)
  · exact inferInstanceAs (Decidable (_ < _))

variable {index}

theorem perm_ownKeys (keys : List α) : (ownKeys index keys).Perm keys := by
  have sorted := List.mergeSort_perm (keys.filter fun key => (index key).isSome)
    fun key other => (index key).getD 0 ≤ (index other).getD 0
  have rest : unnumbered index keys = keys.filter fun key => !(index key).isSome :=
    List.filter_congr fun key _ => by cases index key <;> rfl
  rw [ownKeys, numbered, rest]
  exact (sorted.append_right _).trans (List.filter_append_perm _ keys)

theorem mem_ownKeys {keys : List α} {key : α} : key ∈ ownKeys index keys ↔ key ∈ keys := (perm_ownKeys keys).mem_iff

theorem mem_numbered {keys : List α} {key : α} :
    key ∈ numbered index keys ↔ key ∈ keys ∧ (index key).isSome = true := by
  rw [numbered, List.mem_mergeSort, List.mem_filter]

/-- No two keys have one number. -/
def Distinct (index : α → Option ℕ) : Prop := ∀ key other n, index key = some n → index other = some n → key = other

theorem pairwise_numbered (distinct : Distinct index) {keys : List α} (nodup : keys.Nodup) :
    (numbered index keys).Pairwise (Before index) := by
  have sorted : (numbered index keys).Pairwise fun key other =>
      decide ((index key).getD 0 ≤ (index other).getD 0) = true :=
    List.pairwise_mergeSort (by simpa using fun _ _ _ => le_trans) (by simpa using fun _ _ => le_total _ _) _
  have apart : (numbered index keys).Pairwise (· ≠ ·) :=
    (List.mergeSort_perm _ _).nodup_iff.mpr (nodup.filter _)
  have members : ∀ key ∈ numbered index keys, (index key).isSome = true := fun key member => (mem_numbered.mp member).2
  refine (sorted.and apart).imp_of_mem fun {key other} first second both => ?_
  obtain ⟨n, isKey⟩ := Option.isSome_iff_exists.mp (members key first)
  obtain ⟨m, isOther⟩ := Option.isSome_iff_exists.mp (members other second)
  obtain ⟨le, ne⟩ := both
  rw [isKey, isOther, Option.getD_some, Option.getD_some, decide_eq_true_eq] at le
  rw [Before, isKey, isOther]
  exact lt_of_le_of_ne le fun same => ne (distinct key other n isKey (same ▸ isOther))

theorem not_before_self (key : α) : ¬ Before index key key := by
  unfold Before
  cases index key with
  | none => exact id
  | some n => exact lt_irrefl n

theorem Before.asymm {key other : α} (first : Before index key other) : ¬ Before index other key := by
  unfold Before at *
  cases isKey : index key with
  | none => simp [isKey] at first
  | some n =>
    cases isOther : index other with
    | none => exact id
    | some m =>
      simp only [isKey, isOther] at first
      exact lt_asymm first

theorem length_filter_numbered (keys : List α) (p : α → Bool)
    (all : ∀ other, p other = true → (index other).isSome = true) :
    ((numbered index keys).filter p).length = (keys.filter p).length := by
  have sorted := (List.mergeSort_perm (keys.filter fun key => (index key).isSome)
    fun key other => (index key).getD 0 ≤ (index other).getD 0).filter p
  rw [numbered, sorted.length_eq, List.filter_filter]
  refine congrArg List.length (List.filter_congr fun other _ => ?_)
  by_cases holds : p other = true
  · rw [holds, all other holds]
    rfl
  · rw [Bool.not_eq_true] at holds
    rw [holds, Bool.false_and]

theorem Before.isSome {key other : α} (before : Before index other key) : (index other).isSome = true := by
  unfold Before at before
  cases is : index other with
  | none => simp [is] at before
  | some n => rfl

theorem before_iff_of_none {key other : α} (none : index key = none) :
    Before index other key ↔ (index other).isSome = true := by
  unfold Before
  rw [none]
  cases index other <;> simp

section Position
variable [BEq α] [LawfulBEq α] {keys more : List α} {key : α}

/-- In a list that is in this order a key has those before it that go before it. -/
theorem idxOf_of_pairwise (ordered : keys.Pairwise (Before index)) (member : key ∈ keys) :
    keys.idxOf key = (keys.filter fun other => Before index other key).length := by
  induction keys with
  | nil => cases member
  | cons first keys ih =>
    rw [List.pairwise_cons] at ordered
    by_cases same : first = key
    · subst same
      have none : keys.filter (fun other => Before index other first) = [] :=
        List.filter_eq_nil_iff.mpr fun other inKeys before => (ordered.1 other inKeys).asymm (of_decide_eq_true before)
      rw [List.idxOf_cons_self, List.filter_cons_of_neg (by simpa using not_before_self first), none, List.length_nil]
    · have inKeys : key ∈ keys := (List.mem_cons.mp member).resolve_left (Ne.symm same)
      rw [List.idxOf_cons_ne keys same, List.filter_cons_of_pos (by simpa using ordered.1 key inKeys), List.length_cons,
        ih ordered.2 inKeys]

/-- The place of a key: after those that go before it, and if it has no number
also after the others without one that were made earlier. -/
theorem idxOf_ownKeys (distinct : Distinct index) (nodup : keys.Nodup) (member : key ∈ keys) :
    (ownKeys index keys).idxOf key = (keys.filter fun other => Before index other key).length +
      if index key = none then (unnumbered index keys).idxOf key else 0 := by
  have count := @length_filter_numbered α index keys (fun other => Before index other key)
    fun other before => Before.isSome (of_decide_eq_true before)
  by_cases none : index key = none
  · have absent : key ∉ numbered index keys := fun inside => by
      have some := (mem_numbered.mp inside).2
      rw [none] at some
      cases some
    have all : (numbered index keys).filter (fun other => Before index other key) = numbered index keys :=
      List.filter_eq_self.mpr fun other inside => decide_eq_true ((before_iff_of_none none).mpr (mem_numbered.mp inside).2)
    rw [if_pos none, ownKeys, List.idxOf_append_of_notMem absent, ← count, all]
  · have some : (index key).isSome = true := Option.isSome_iff_ne_none.mpr none
    have inside := mem_numbered.mpr ⟨member, some⟩
    rw [if_neg none, ownKeys, List.idxOf_append_of_mem inside, idxOf_of_pairwise (pairwise_numbered distinct nodup) inside,
      count, Nat.add_zero]

/-- New keys move a key by as many places as there are of them that go before it. -/
theorem idxOf_ownKeys_append (distinct : Distinct index) (nodup : (keys ++ more).Nodup) (member : key ∈ keys) :
    (ownKeys index (keys ++ more)).idxOf key =
      (ownKeys index keys).idxOf key + (more.filter fun other => Before index other key).length := by
  have rest : (unnumbered index (keys ++ more)).idxOf key = (unnumbered index keys).idxOf key ∨ index key ≠ none := by
    by_cases none : index key = none
    · have inside : key ∈ unnumbered index keys := List.mem_filter.mpr ⟨member, by rw [none]; rfl⟩
      rw [unnumbered, List.filter_append]
      exact Or.inl (List.idxOf_append_of_mem inside)
    · exact Or.inr none
  rw [idxOf_ownKeys distinct nodup (List.mem_append_left _ member), idxOf_ownKeys distinct nodup.of_append_left member,
    List.filter_append, List.length_append]
  rcases rest with same | some
  · rw [same, Nat.add_right_comm]
  · rw [if_neg some, if_neg some, Nat.add_zero, Nat.add_zero]

end Position

end PropertyOrder
