import SysNetMon.Agent
import SysNetMon.Chat

/-!
The lines that agents and dashboards write, as the server takes them off the wire.
-/

namespace SysNetMon
open Bytes Decimal KeySearch PyStr

/-- A line that is taken off the wire as it was written. -/
structure WireLine (line : Bytes) : Prop where
  braced : ∃ inner, line = 123 :: (inner ++ [125])
  whole : newline ∉ line

/-- Lines one after another, each with its newline. -/
def textOf (lines : List Bytes) : Bytes := lines.flatMap fun line => line ++ [newline]

section WireLine
variable {line : Bytes} {lines : List Bytes}

theorem WireLine.trim_eq (wire : WireLine line) : trim line = line := by
  obtain ⟨inner, rfl⟩ := wire.braced
  exact trim_braces inner

theorem WireLine.ne_nil (wire : WireLine line) : line ≠ [] := by
  obtain ⟨inner, rfl⟩ := wire.braced
  exact List.cons_ne_nil _ _

/-- The server takes off the wire what was written. -/
theorem linesOf_textOf (wire : ∀ line ∈ lines, WireLine line) : linesOf (textOf lines) = lines := by
  induction lines with
  | nil => exact linesOf_of_not_mem List.not_mem_nil
  | cons line lines ih =>
    rw [List.forall_mem_cons] at wire
    rw [textOf, List.flatMap_cons, List.append_assoc, List.singleton_append, linesOf_cut wire.1.whole, wire.1.trim_eq,
      if_neg wire.1.ne_nil]
    exact congrArg (line :: ·) (ih wire.2)

/-- What has arrived of a text are the first of its lines. -/
theorem linesOf_initial {s t : Bytes} (le : s <+: t) : linesOf s <+: linesOf t := by
  obtain ⟨rest, rfl⟩ := le
  rw [linesOf_append]
  exact List.prefix_append _ _

theorem linesOf_of_prefix_textOf (wire : ∀ line ∈ lines, WireLine line) {s : Bytes} (le : s <+: textOf lines) :
    linesOf s <+: lines := by
  have first := linesOf_initial le
  rwa [linesOf_textOf wire] at first

end WireLine

section Objects
variable {gap : Bytes} {fields : List (Bytes × Bytes)}

theorem newline_not_mem_field {f : Bytes × Bytes} (gapPlain : newline ∉ gap) (name : newline ∉ f.1)
    (content : newline ∉ f.2) : newline ∉ field gap f := by
  simp only [field, List.mem_cons, List.mem_append, not_or]
  exact ⟨by decide, name, by decide, by decide, gapPlain, content⟩

theorem newline_not_mem_closing (gapPlain : newline ∉ gap) (plain : ∀ f ∈ fields, newline ∉ f.1 ∧ newline ∉ f.2) :
    newline ∉ closing gap fields := by
  induction fields with
  | nil => exact List.mem_singleton.not.mpr (by decide)
  | cons f fields ih =>
    rw [List.forall_mem_cons] at plain
    simp only [closing, List.mem_cons, List.mem_append, not_or]
    exact ⟨by decide, gapPlain, newline_not_mem_field gapPlain plain.1.1 plain.1.2, ih plain.2⟩

theorem closing_braced (gap : Bytes) (fields : List (Bytes × Bytes)) : ∃ inner, closing gap fields = inner ++ [125] := by
  induction fields with
  | nil => exact ⟨[], rfl⟩
  | cons f fields ih =>
    obtain ⟨inner, shape⟩ := ih
    refine ⟨comma :: (gap ++ (field gap f ++ inner)), ?_⟩
    rw [closing, shape]
    simp

/-- The text of an object is such a line where no part of it has a newline. -/
theorem wireLine_objectText (gapPlain : newline ∉ gap) (plain : ∀ f ∈ fields, newline ∉ f.1 ∧ newline ∉ f.2) :
    WireLine (objectText gap fields) := by
  cases fields with
  | nil => exact ⟨⟨[], rfl⟩, by simp [objectText, newline]⟩
  | cons f fields =>
    obtain ⟨inner, shape⟩ := closing_braced gap fields
    rw [List.forall_mem_cons] at plain
    constructor
    · refine ⟨field gap f ++ inner, ?_⟩
      rw [objectText, shape, List.append_assoc]
    · rw [objectText, List.mem_cons, List.mem_append, not_or, not_or]
      exact ⟨by decide, newline_not_mem_field gapPlain plain.1.1 plain.1.2, newline_not_mem_closing gapPlain plain.2⟩

theorem newline_not_mem_quoted (s : Bytes) : newline ∉ quoted s := by
  simp only [quoted, List.mem_cons, List.mem_append, List.not_mem_nil, or_false, not_or]
  exact ⟨by decide, newline_not_mem_escape_json s, by decide⟩

theorem newline_not_mem_of_printable {s : Bytes} (printable : Printable s) : newline ∉ s := fun member =>
  absurd (printable newline member).1 (by decide)

theorem wireLine_register (agent_name : Bytes) : WireLine (register_message agent_name) := by
  rw [register_message_eq]
  refine wireLine_objectText List.not_mem_nil ?_
  simp only [registerFields, List.forall_mem_cons]
  exact ⟨⟨by decide, by decide⟩, ⟨by decide, by decide⟩, ⟨by decide, newline_not_mem_quoted _⟩, List.forall_mem_nil _⟩

theorem wireLine_payload (metric : MetricSnapshot) : WireLine (metrics_payload metric) := by
  have number (value : Double) : newline ∉ format_double value :=
    newline_not_mem_of_printable (printable_format_double value)
  have integer (i : ℤ) : newline ∉ printInt i :=
    newline_not_mem_of_printable (printable_signed (printable_digits _) _)
  rw [metrics_payload_eq]
  refine wireLine_objectText List.not_mem_nil ?_
  simp only [payloadFields, List.forall_mem_cons]
  exact ⟨⟨by decide, by decide⟩, ⟨by decide, newline_not_mem_quoted _⟩, ⟨by decide, newline_not_mem_quoted _⟩,
    ⟨by decide, number _⟩, ⟨by decide, number _⟩, ⟨by decide, number _⟩, ⟨by decide, number _⟩, ⟨by decide, number _⟩,
    ⟨by decide, integer _⟩, ⟨by decide, integer _⟩, ⟨by decide, integer _⟩, ⟨by decide, integer _⟩,
    List.forall_mem_nil _⟩

/-- So is what the connector dumps. -/
theorem wireLine_dumps {fields : List (String × PyStr)} (names : ∀ f ∈ fields, Printable (ascii f.1)) :
    WireLine (dumps fields) := by
  rw [dumps_eq]
  refine wireLine_objectText (by decide) fun f member => ?_
  obtain ⟨g, inFields, rfl⟩ := List.mem_map.mp member
  refine ⟨newline_not_mem_of_printable (names g inFields), ?_⟩
  have content : newline ∉ dumps_str g.2 := newline_not_mem_of_printable (printable_dumps_str g.2)
  simp only [written, List.mem_cons, List.mem_append, List.not_mem_nil, or_false, not_or]
  exact ⟨by decide, content, by decide⟩

end Objects

end SysNetMon
