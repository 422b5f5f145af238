import Mathlib.Logic.Function.Basic
import SysNetMon.Transition

/-!
Threads that share a state under one lock: a run of the small steps of their
critical sections looks as if each section had happened at once, where it took
the lock.
-/

namespace Locking

/-- A critical section as its small steps, on the shared state and the variables of its thread. -/
abbrev Body (σ τ : Type*) := List (σ × τ → σ × τ)

def Body.run {σ τ : Type*} (body : Body σ τ) (s : σ × τ) : σ × τ := body.foldl (fun s move => move s) s

/-- The shared state, the variables of each thread, and who holds the lock with
what it still has to do before it releases it. -/
structure Threads (ι σ τ : Type*) where
  shared : σ
  own : ι → τ
  lock : Option (ι × Body σ τ) := none

variable {ι σ τ β : Type*} [DecidableEq ι]

/-- What a thread makes of the shared state and of its own variables. -/
def assign (i : ι) (own : ι → τ) (s : σ × τ) : σ × (ι → τ) := (s.1, Function.update own i s.2)

/-- The small steps. `enters` says which sections a thread can come to. -/
inductive Step (body : β → Body σ τ) (enters : ι → τ → β → Prop) : Threads ι σ τ → List (ι × β) → Threads ι σ τ → Prop
  | acquire {threads i b} : threads.lock = none → enters i (threads.own i) b →
      Step body enters threads [(i, b)] { threads with lock := some (i, body b) }
  | move {threads i move rest} : threads.lock = some (i, move :: rest) →
      Step body enters threads []
        { shared := (assign i threads.own (move (threads.shared, threads.own i))).1
          own := (assign i threads.own (move (threads.shared, threads.own i))).2
          lock := some (i, rest) }
  | release {threads i} : threads.lock = some (i, []) →
      Step body enters threads [] { threads with lock := none }

/-- A whole section at once. -/
inductive AtomicStep (body : β → Body σ τ) (enters : ι → τ → β → Prop) :
    σ × (ι → τ) → List (ι × β) → σ × (ι → τ) → Prop
  | run {s i b} : enters i (s.2 i) b → AtomicStep body enters s [(i, b)] (assign i s.2 ((body b).run (s.1, s.2 i)))

/-- The threads once the holder of the lock has come to the end of its section. -/
def Threads.settled (threads : Threads ι σ τ) : σ × (ι → τ) :=
  match threads.lock with
  | none => (threads.shared, threads.own)
  | some (i, rest) => assign i threads.own (rest.run (threads.shared, threads.own i))

variable {body : β → Body σ τ} {enters : ι → τ → β → Prop} {threads after : Threads ι σ τ} {entries log : List (ι × β)}

theorem Threads.settled_of_free (free : threads.lock = none) : threads.settled = (threads.shared, threads.own) := by
  rw [settled, free]

/-- A thread outside of its sections has its variables settled. -/
theorem Threads.settled_own {i : ι} (outside : ∀ rest, threads.lock ≠ some (i, rest)) :
    threads.settled.2 i = threads.own i := by
  unfold settled
  split
  · rfl
  · rename_i j rest held
    have other : i ≠ j := by
      rintro rfl
      exact outside rest held
    exact Function.update_of_ne other _ _

/-- Taking the lock is the section as a whole, and the steps up to its release are none. -/
theorem Step.settles (one : Step body enters threads entries after) :
    (entries = [] ∧ after.settled = threads.settled) ∨ AtomicStep body enters threads.settled entries after.settled := by
  cases one with
  | @acquire i b free may =>
    rw [Threads.settled_of_free free]
    exact Or.inr (.run may)
  | @move i move rest held =>
    refine Or.inl ⟨rfl, ?_⟩
    simp only [Threads.settled, held, assign, Function.update_self, Function.update_idem]
    rfl
  | @release i held =>
    refine Or.inl ⟨rfl, ?_⟩
    simp only [Threads.settled, held]
    exact Prod.ext rfl (Function.update_eq_self i threads.own).symm

/-- A run of small steps is a run of whole sections. -/
theorem atomic_run {start : Threads ι σ τ} (run : LoggedRun start (Step body enters) threads log) :
    LoggedRun start.settled (AtomicStep body enters) threads.settled log := by
  refine run.invariant (fun threads log => LoggedRun start.settled (AtomicStep body enters) threads.settled log) .start ?_
  intro threads after log entries _ ih one
  rcases one.settles with ⟨rfl, same⟩ | atomic
  · rwa [List.append_nil, same]
  · exact ih.next atomic

/-- After its last section a thread holds what this section made of the state that
the sections before it had led to. -/
theorem own_of_last {start s : σ × (ι → τ)} (run : LoggedRun start (AtomicStep body enters) s log) :
    ∀ earlier i b later, log = earlier ++ (i, b) :: later → (∀ entry ∈ later, entry.1 ≠ i) →
      ∃ before, LoggedRun start (AtomicStep body enters) before earlier ∧
        s.2 i = ((body b).run (before.1, before.2 i)).2 := by
  refine run.invariant (fun s log => ∀ earlier i b later, log = earlier ++ (i, b) :: later →
    (∀ entry ∈ later, entry.1 ≠ i) → ∃ before, LoggedRun start (AtomicStep body enters) before earlier ∧
      s.2 i = ((body b).run (before.1, before.2 i)).2) ?_ ?_
  · intro earlier i b later empty
    exact absurd empty.symm (by simp)
  intro before after log entries previous ih one earlier i b later whole last
  cases one with
  | @run i' b' may =>
    rcases List.eq_nil_or_concat later with rfl | ⟨later', entry, rfl⟩
    · obtain ⟨rfl, same⟩ := List.append_inj' whole rfl
      cases same
      exact ⟨before, previous, Function.update_self ..⟩
    · rw [List.concat_eq_append, ← List.cons_append, ← List.append_assoc] at whole
      obtain ⟨rfl, same⟩ := List.append_inj' whole rfl
      cases same
      have other : i ≠ i' := fun same => last (i', b') (by simp) same.symm
      obtain ⟨then', reached, own⟩ := ih earlier i b later' rfl fun entry member => last entry (by simp [member])
      exact ⟨then', reached, (Function.update_of_ne other _ _).trans own⟩

/-- Whoever holds the lock can come to the end of its section. -/
theorem finish {start : Threads ι σ τ} {i : ι} {rest : Body σ τ} (run : LoggedRun start (Step body enters) threads log)
    (held : threads.lock = some (i, rest)) :
    LoggedRun start (Step body enters) ⟨threads.settled.1, threads.settled.2, none⟩ log := by
  induction rest generalizing threads with
  | nil =>
    have released := run.next (.release held)
    have settled : threads.settled = (threads.shared, threads.own) := by
      simp only [Threads.settled, held]
      exact Prod.ext rfl (Function.update_eq_self i threads.own)
    rw [List.append_nil] at released
    rwa [settled]
  | cons move rest ih =>
    have one : Step body enters threads [] _ := .move held
    have moved := run.next one
    rw [List.append_nil] at moved
    have settled := ih moved rfl
    rcases one.settles with ⟨-, same⟩ | atomic
    · rwa [same] at settled
    · cases atomic

/-- A whole section, where the lock is free. -/
theorem whole_section {start : Threads ι σ τ} {i : ι} {b : β} (run : LoggedRun start (Step body enters) threads log)
    (free : threads.lock = none) (may : enters i (threads.own i) b) :
    LoggedRun start (Step body enters)
      ⟨(assign i threads.own ((body b).run (threads.shared, threads.own i))).1,
        (assign i threads.own ((body b).run (threads.shared, threads.own i))).2, none⟩ (log ++ [(i, b)]) :=
  finish (run.next (.acquire free may)) rfl

end Locking
