import SysNetMon.AlertCommand
import SysNetMon.Encoders
import SysNetMon.Run
import SysNetMon.Text.Bytes

namespace SysNetMon
open Bytes Decimal Json KeySearch Regex

/-- The characters that no JSON string may hold raw and that `escape_json` passes on. -/
def israwcontrol (ch : UInt8) : Bool := ch < 32 && ch != newline && ch != 13 && ch != 9

def Clean (s : Bytes) : Prop := ∀ ch ∈ s, israwcontrol ch = false

instance (s : Bytes) : Decidable (Clean s) := List.decidableBAll _ s

theorem stringBody_escape_char (ch : UInt8) (t : Bytes) :
    stringBody (escape_char ch ++ t) =
      if israwcontrol ch then none else (stringBody t).map fun m => (ch :: m.1, m.2) := by
  rcases escape_char_cases ch with ⟨e, shape, letter, -, special⟩ | ⟨shape, plain⟩
  · have noControl : israwcontrol ch = false := by
      simp only [List.mem_cons, List.not_mem_nil, or_false] at special
      rcases special with rfl | rfl | rfl | rfl | rfl <;> decide
    rw [shape, noControl, if_neg Bool.false_ne_true]
    exact stringBody_escape letter t
  · simp only [List.mem_cons, List.not_mem_nil, or_false, not_or] at plain
    obtain ⟨notBackslash, notQuote, notNewline, notReturn, notTab⟩ := plain
    rw [shape]
    by_cases control : ch < 32
    · have raw : israwcontrol ch = true := by simp [israwcontrol, control, notNewline, notReturn, notTab]
      rw [raw, if_pos rfl]
      exact stringBody_control control t
    · have printable : israwcontrol ch = false := by simp [israwcontrol, control]
      rw [printable, if_neg Bool.false_ne_true]
      exact stringBody_plain notQuote notBackslash control t

/-- What the strict decoder makes of an escaped string. -/
theorem stringBody_escape_json (s r : Bytes) :
    stringBody (escape_json s ++ quote :: r) = if Clean s then some (s, r) else none := by
  induction s with
  | nil => exact stringBody_quote r
  | cons ch s ih =>
    rw [escape_json, List.flatMap_cons, List.append_assoc, stringBody_escape_char]
    change (if israwcontrol ch = true then none else
      (stringBody (escape_json s ++ quote :: r)).map fun m => (ch :: m.1, m.2)) = _
    rw [ih]
    by_cases raw : israwcontrol ch = true
    · have unclean : ¬ Clean (ch :: s) := fun clean => by simpa [raw] using clean ch List.mem_cons_self
      rw [if_pos raw, if_neg unclean]
    · rw [Bool.not_eq_true] at raw
      have same : Clean (ch :: s) ↔ Clean s := by simp [Clean, raw]
      rw [raw, if_neg Bool.false_ne_true]
      by_cases clean : Clean s
      · rw [if_pos clean, if_pos (same.mpr clean)]
        rfl
      · rw [if_neg clean, if_neg (mt same.mp clean)]
        rfl

/-- The dashboard decodes the line of an event to the value of the event exactly
when no string in it holds a raw control character; otherwise it refuses the line. -/
theorem ServerEvent.loads_to_json (event : ServerEvent) :
    loads event.to_json = if ∀ s ∈ strings event.toDoc, Clean s then some event.toObject else none := by
  rw [to_json_eq]
  exact loads_render stringBody_escape_json event.toDoc

/-- A string whose line the dashboard can decode. -/
def Sound (s : Bytes) : Prop := Clean s ∧ Utf8.Valid s

theorem Sound.append {s t : Bytes} (first : Sound s) (second : Sound t) : Sound (s ++ t) :=
  ⟨fun ch member => (List.mem_append.mp member).elim (first.1 ch) (second.1 ch), first.2.append second.2⟩

theorem sound_of_printable {s : Bytes} (printable : Printable s) : Sound s := by
  refine ⟨fun ch member => ?_, Utf8.valid_ascii fun ch member => by have := printable ch member; omega⟩
  have large : ¬ ch < 32 := by
    rw [UInt8.lt_iff_toNat_lt]
    exact Nat.not_lt.mpr (printable ch member).1
  simp [israwcontrol, large]

theorem printable_iso_timestamp (now : Tm) : Printable (iso_timestamp now) := by
  have field (n : Fin 100) : Printable (twoDigits n) := printable_twoDigits n.isLt
  have mark (s : String) (printable : Printable (ascii s)) {t : Bytes} (inner : Printable t) :
      Printable (t ++ ascii s) := inner.append printable
  exact mark "Z" (by decide) ((mark ":" (by decide) ((mark ":" (by decide) ((mark "T" (by decide) ((mark "-" (by decide)
    ((mark "-" (by decide) (printable_digits _)).append (field _))).append (field _))).append (field _))).append
    (field _))).append (field _))

theorem printable_endpoint_label (peer : Peer) : Printable (endpoint_label peer) := by
  have mark (s : String) (printable : Printable (ascii s)) {t : Bytes} (inner : Printable t) :
      Printable (t ++ ascii s) := inner.append printable
  exact (mark ":" (by decide) ((mark "." (by decide) ((mark "." (by decide) ((mark "." (by decide)
    (printable_digits _)).append (printable_digits _))).append (printable_digits _))).append
    (printable_digits _))).append (printable_digits _)

theorem printable_format_double (value : Double) : Printable (format_double value) :=
  printable_signed (printable_hundredths _) _

theorem escape_char_ascii (ch : UInt8) (small : ch.toNat < 128) : ∀ d ∈ escape_char ch, d.toNat < 128 := by
  rcases escape_char_cases ch with ⟨e, shape, -, member, -⟩ | ⟨shape, -⟩
  · rw [shape]
    simp only [List.mem_cons, List.not_mem_nil, or_false] at member
    rcases member with rfl | rfl | rfl | rfl | rfl <;>
    exact List.forall_mem_cons.mpr ⟨by decide, List.forall_mem_singleton.mpr (by decide)⟩
  · rw [shape]
    intro d member
    rwa [List.mem_singleton.mp member]

theorem escape_char_other (ch : UInt8) (large : 128 ≤ ch.toNat) : escape_char ch = [ch] := by
  rcases escape_char_cases ch with ⟨e, -, -, -, special⟩ | ⟨shape, -⟩
  · simp only [List.mem_cons, List.not_mem_nil, or_false] at special
    rcases special with rfl | rfl | rfl | rfl | rfl <;> exact absurd large (by decide)
  · exact shape

theorem newline_not_mem_escape_json (s : Bytes) : newline ∉ escape_json s := by
  intro member
  obtain ⟨ch, -, inner⟩ := List.mem_flatMap.mp member
  rcases escape_char_cases ch with ⟨e, shape, -, letter, -⟩ | ⟨shape, plain⟩
  · rw [shape] at inner
    simp only [List.mem_cons, List.not_mem_nil, or_false] at inner letter
    rcases inner with is | rfl
    · exact absurd is (by decide)
    · exact absurd letter (by decide)
  · rw [shape, List.mem_singleton] at inner
    subst inner
    exact plain (by decide)

/-- The text of an event is one line. -/
theorem ServerEvent.newline_not_mem (event : ServerEvent) : newline ∉ event.to_json := by
  rw [to_json_eq]
  refine render_closed (P := fun s => newline ∉ s) (fun first second => ?_) (fun printable member => ?_) _
    fun s _ => newline_not_mem_escape_json s
  · rw [List.mem_append, not_or]
    exact ⟨first, second⟩
  · exact absurd (printable _ member).1 (by decide)

theorem ServerEvent.valid_to_json {event : ServerEvent} (valid : ∀ s ∈ strings event.toDoc, Utf8.Valid s) :
    Utf8.Valid event.to_json := by
  rw [to_json_eq]
  refine render_closed Utf8.Valid.append (fun printable => (sound_of_printable printable).2) _ fun s member => ?_
  exact (valid s member).flatMap escape_char_ascii escape_char_other

end SysNetMon
