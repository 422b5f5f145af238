import Mathlib.Data.List.Count
import Mathlib.Data.Finset.Basic

/-!
Descriptors that a program opens, uses and closes: what it means that a log of
its calls is in order.
-/

namespace Descriptors
variable {α : Type*} [DecidableEq α]

/-- A call on a descriptor. -/
inductive Call (α : Type*) where
  | opens (fd : α)
  | uses (fd : α)
  | closes (fd : α)
  deriving DecidableEq

/-- Calls that lead from one set of open descriptors to another: what is opened
was not open, and what is used or closed was. -/
inductive InOrder : Finset α → List (Call α) → Finset α → Prop
  | nil {s} : InOrder s [] s
  | opens {s fd calls t} : fd ∉ s → InOrder (insert fd s) calls t → InOrder s (.opens fd :: calls) t
  | uses {s fd calls t} : fd ∈ s → InOrder s calls t → InOrder s (.uses fd :: calls) t
  | closes {s fd calls t} : fd ∈ s → InOrder (s.erase fd) calls t → InOrder s (.closes fd :: calls) t

namespace InOrder
variable {s t u : Finset α} {calls calls' : List (Call α)} {fd : α}

theorem append (first : InOrder s calls t) (second : InOrder t calls' u) : InOrder s (calls ++ calls') u := by
  induction first with
  | nil => exact second
  | opens fresh _ ih => exact .opens fresh (ih second)
  | uses known _ ih => exact .uses known (ih second)
  | closes known _ ih => exact .closes known (ih second)

/-- Calls can be cut anywhere. -/
theorem split (all : InOrder s (calls ++ calls') u) : ∃ t, InOrder s calls t ∧ InOrder t calls' u := by
  induction calls generalizing s with
  | nil => exact ⟨s, .nil, all⟩
  | cons call calls ih =>
    cases all with
    | opens fresh rest =>
      obtain ⟨t, first, second⟩ := ih rest
      exact ⟨t, .opens fresh first, second⟩
    | uses known rest =>
      obtain ⟨t, first, second⟩ := ih rest
      exact ⟨t, .uses known first, second⟩
    | closes known rest =>
      obtain ⟨t, first, second⟩ := ih rest
      exact ⟨t, .closes known first, second⟩

/-- The descriptors that are open after the calls are determined by them. -/
theorem unique (first : InOrder s calls t) (second : InOrder s calls u) : t = u := by
  induction first with
  | nil =>
    cases second
    rfl
  | opens _ _ ih =>
    cases second with
    | opens _ rest => exact ih rest
  | uses _ _ ih =>
    cases second with
    | uses _ rest => exact ih rest
  | closes _ _ ih =>
    cases second with
    | closes _ rest => exact ih rest

/-- One call on its own. -/
theorem opened (fresh : fd ∉ s) : InOrder s [.opens fd] (insert fd s) := .opens fresh .nil

theorem used (known : fd ∈ s) : InOrder s [.uses fd] s := .uses known .nil

theorem closed (known : fd ∈ s) : InOrder s [.closes fd] (s.erase fd) := .closes known .nil

/-- Any use of what is open. -/
theorem all_used (known : ∀ call ∈ calls, ∃ fd ∈ s, call = .uses fd) : InOrder s calls s := by
  induction calls with
  | nil => exact .nil
  | cons call calls ih =>
    rw [List.forall_mem_cons] at known
    obtain ⟨⟨fd, member, rfl⟩, later⟩ := known
    exact .uses member (ih later)

/-- A descriptor that is opened, used and closed again. -/
theorem bracket (fresh : fd ∉ s) (own : ∀ call ∈ calls, call = .uses fd) :
    InOrder s (.opens fd :: (calls ++ [.closes fd])) s := by
  have inside : InOrder (insert fd s) calls (insert fd s) :=
    all_used fun call member => ⟨fd, Finset.mem_insert_self fd s, own call member⟩
  have last := closed (Finset.mem_insert_self fd s)
  rw [Finset.erase_insert fresh] at last
  exact .opens fresh (inside.append last)

/-- Different descriptors can be closed one after another. -/
theorem all_closed {fds : List α} (distinct : fds.Nodup) (known : ∀ fd ∈ fds, fd ∈ s) :
    InOrder s (fds.map .closes) (s \ fds.toFinset) := by
  induction fds generalizing s with
  | nil =>
    rw [List.toFinset_nil, Finset.sdiff_empty]
    exact .nil
  | cons fd fds ih =>
    rw [List.forall_mem_cons] at known
    rw [List.nodup_cons] at distinct
    have later := ih distinct.2 (s := s.erase fd) fun other member =>
      Finset.mem_erase.mpr ⟨fun is => distinct.1 (is ▸ member), known.2 other member⟩
    have rest : s.erase fd \ fds.toFinset = s \ (fd :: fds).toFinset := by
      ext other
      simp only [Finset.mem_sdiff, Finset.mem_erase, List.mem_toFinset, List.mem_cons, not_or]
      tauto
    rw [rest] at later
    exact .closes known.1 later

/-- Every descriptor is closed as often as it is opened, but for what was open
before and is open now. -/
theorem balance (order : InOrder s calls t) (fd : α) :
    calls.count (.opens fd) + (if fd ∈ s then 1 else 0) = calls.count (.closes fd) + if fd ∈ t then 1 else 0 := by
  induction order with
  | nil => rfl
  | @opens s other calls t fresh _ ih =>
    simp only [Finset.mem_insert] at ih
    by_cases same : fd = other
    · subst same
      rw [List.count_cons_self, List.count_cons_of_ne (by simp), ← ih, if_neg fresh, if_pos (Or.inl rfl)]
    · rw [List.count_cons_of_ne (by simp [Ne.symm same]), List.count_cons_of_ne (by simp), ← ih]
      simp only [same, false_or]
  | uses _ _ ih => rw [List.count_cons_of_ne (by simp), List.count_cons_of_ne (by simp), ih]
  | @closes s other calls t known _ ih =>
    simp only [Finset.mem_erase] at ih
    by_cases same : fd = other
    · subst same
      rw [List.count_cons_self, List.count_cons_of_ne (by simp), if_pos known, Nat.add_right_comm, ← ih,
        if_neg (fun both => both.1 rfl)]
    · rw [List.count_cons_of_ne (by simp), List.count_cons_of_ne (by simp [Ne.symm same]), ← ih]
      simp only [ne_eq, same, not_false_eq_true, true_and]

end InOrder

end Descriptors
