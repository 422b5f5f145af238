import Mathlib.Data.List.Basic

/-!
Transition systems that keep a log: runs and their invariants, and the parts of a
system that go by their own inputs.
-/

/-- Runs of a transition system that keeps a log: each step appends the
entries it produced. -/
inductive LoggedRun {σ ε : Type*} (start : σ) (step : σ → List ε → σ → Prop) : σ → List ε → Prop
  | start : LoggedRun start step start []
  | next {s s' log entries} : LoggedRun start step s log → step s entries s' →
      LoggedRun start step s' (log ++ entries)

namespace LoggedRun
variable {σ ε : Type*} {start : σ} {step : σ → List ε → σ → Prop}

/-- What holds at the start and is kept by every step of a run holds along the
run. The step may use the invariants already known. -/
theorem invariant (inv : σ → List ε → Prop) (initial : inv start [])
    (kept : ∀ {s s' log entries}, LoggedRun start step s log → inv s log → step s entries s' →
      inv s' (log ++ entries)) {s : σ} {log : List ε} (run : LoggedRun start step s log) : inv s log := by
  induction run with
  | start => exact initial
  | next previous one ih => exact kept previous ih one

/-- An invariant of the state alone. -/
theorem state_invariant (inv : σ → Prop) (initial : inv start)
    (kept : ∀ {s s' entries}, inv s → step s entries s' → inv s')
    {s : σ} {log : List ε} (run : LoggedRun start step s log) : inv s :=
  run.invariant (fun s _ => inv s) initial fun _ ih one => kept ih one

end LoggedRun

namespace Fold
variable {σ α β ε : Type*}

/-- A fold with a step that can fail: where each step succeeds and keeps an
invariant of the state and of what the steps have added, so does the fold. -/
theorem foldlM_keeps (step : σ → α → Except ε σ) (inv : List β → σ → Prop) (adds : α → List β) {ok : α → Prop}
    (kept : ∀ {log s a}, inv log s → ok a → ∃ s', step s a = .ok s' ∧ inv (log ++ adds a) s')
    {log : List β} {s : σ} (initial : inv log s) {as : List α} (all : ∀ a ∈ as, ok a) :
    ∃ s', as.foldlM step s = .ok s' ∧ inv (log ++ as.flatMap adds) s' := by
  induction as generalizing log s with
  | nil => exact ⟨s, rfl, by rwa [List.flatMap_nil, List.append_nil]⟩
  | cons a as ih =>
    rw [List.forall_mem_cons] at all
    obtain ⟨middle, first, held⟩ := kept initial all.1
    obtain ⟨last, rest, final⟩ := ih held all.2
    rw [List.append_assoc, ← List.flatMap_cons] at final
    refine ⟨last, ?_, final⟩
    rw [List.foldlM_cons, first]
    exact rest

end Fold

/-!
A part of a transition system that goes by its own inputs: a run is simulated by
a deterministic machine that reads only these, and so are its outputs.
-/

namespace Component
variable {σ τ ε α ω : Type*}

/-- A machine on its inputs: the state it ends in and all that it puts out. -/
def feed (machine : τ → α → τ × List ω) : τ → List α → τ × List ω
  | t, [] => (t, [])
  | t, a :: as =>
    let first := machine t a
    let rest := feed machine first.1 as
    (rest.1, first.2 ++ rest.2)

theorem feed_append (machine : τ → α → τ × List ω) (t : τ) (as bs : List α) :
    feed machine t (as ++ bs) =
      ((feed machine (feed machine t as).1 bs).1,
        (feed machine t as).2 ++ (feed machine (feed machine t as).1 bs).2) := by
  induction as generalizing t with
  | nil => rfl
  | cons a as ih =>
    rw [List.cons_append, feed, ih, feed]
    simp only [List.append_assoc]

variable {machine : τ → α → τ × List ω} {sim : σ → τ → Prop} {input : ε → Option α} {output : ε → List ω}
  {start : σ} {step : σ → List ε → σ → Prop}

/-- The simulation rule: what one step does to the part, the machine does on the
inputs of the step. Then the same holds of whole runs. -/
theorem simulated (kept : ∀ {s s' entries t}, sim s t → step s entries s' →
      sim s' (feed machine t (entries.filterMap input)).1 ∧
        entries.flatMap output = (feed machine t (entries.filterMap input)).2)
    {t : τ} (initial : sim start t) {s : σ} {log : List ε} (run : LoggedRun start step s log) :
    sim s (feed machine t (log.filterMap input)).1 ∧
      log.flatMap output = (feed machine t (log.filterMap input)).2 := by
  refine run.invariant (fun s log => sim s (feed machine t (log.filterMap input)).1 ∧
    log.flatMap output = (feed machine t (log.filterMap input)).2) ⟨initial, rfl⟩ ?_
  intro s s' log entries _ ih one
  obtain ⟨state, outputs⟩ := kept ih.1 one
  rw [List.filterMap_append, feed_append, List.flatMap_append]
  exact ⟨state, by rw [ih.2, outputs]⟩

end Component
