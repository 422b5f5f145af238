import SysNetMon.Dashboard
import SysNetMon.EventLines
import SysNetMon.Text.Framing

/-!
The receiving side of the dashboard: `_consume`, from the chunks that `recv`
returns to the calls of `_handle_event`.
-/

namespace SysNetMon
open Bytes Framing Json

/-- The result of `sock.recv(4096)`. A closed connection yields no bytes. -/
inductive Recv where
  | timeout
  | data (chunk : Bytes)

/-- What ends `_consume`: `ConnectionResetError`, `UnicodeDecodeError`,
`JSONDecodeError`, or an error of `_handle_event`. -/
inductive Raised where
  | closed
  | unicode
  | json
  | event (error : PyError)
  deriving DecidableEq

/-- The state of the connector, with the events that `_handle_event` was called with. -/
structure Consumed where
  state : DashboardState
  calls : List Json := []

/-- The characters that `str.strip` removes. -/
def pyspace (c : Char) : Bool :=
  c.toNat ∈ [0x20, 0x85, 0xa0, 0x1680, 0x2028, 0x2029, 0x202f, 0x205f, 0x3000] ||
    (0x09 ≤ c.toNat && c.toNat ≤ 0x0d) || (0x1c ≤ c.toNat && c.toNat ≤ 0x1f) ||
    (0x2000 ≤ c.toNat && c.toNat ≤ 0x200a)

section Consume
variable (outside : ℕ → Bytes × Json)

/-- The body of the inner loop, for a line that was split off. `outside i` gives
the clock reading and the upload result for the event at position `i`. -/
def take_text (seen : Consumed) (line : List Char) : Except Raised Consumed :=
  if line.all pyspace then .ok seen
  else
    match loads (Utf8.encode line) with
    | none => .error .json
    | some event =>
      match handle_event (outside seen.calls.length).1 (outside seen.calls.length).2 event seen.state with
      | .ok state => .ok ⟨state, seen.calls ++ [event]⟩
      | .error error => .error (.event error)

/-- The inner loop: `line, buffer = buffer.split("\n", 1)` as long as there is a newline. -/
def split_lines (buffer : List Char) (seen : Consumed) : Except Raised (List Char × Consumed) :=
  match _cutting : cut '\n' buffer with
  | none => .ok (buffer, seen)
  | some (line, rest) => (take_text outside seen line).bind fun next => split_lines rest next
termination_by buffer.length
decreasing_by exact length_of_cut _cutting

/-- `_consume` on what `recv` returns, from a buffer on. -/
def consume : List Recv → List Char → Consumed → Except Raised (List Char × Consumed)
  | [], buffer, seen => .ok (buffer, seen)
  | .timeout :: more, buffer, seen => consume more buffer seen
  | .data chunk :: more, buffer, seen =>
    if chunk = [] then .error .closed
    else
      match Utf8.decode chunk with
      | none => .error .unicode
      | some text => (split_lines outside (buffer ++ text) seen).bind fun m => consume more m.1 m.2

/-- The inner loop handles the complete lines of the buffer in order, and keeps the rest. -/
theorem split_lines_eq (buffer : List Char) (seen : Consumed) :
    split_lines outside buffer seen =
      ((segments '\n' buffer).foldlM (take_text outside) seen).map fun last => (unfinished '\n' buffer, last) := by
  fun_induction split_lines outside buffer seen with
  | case1 buffer seen none =>
    rw [segments_of_not_mem (cut_eq_none none), unfinished_of_not_mem (cut_eq_none none)]
    rfl
  | case2 buffer seen line rest some ih =>
    obtain ⟨shape, absent⟩ := cut_eq_some some
    rw [shape, segments_cut absent, unfinished_cut absent, List.foldlM_cons]
    cases take_text outside seen line with
    | error raised => rfl
    | ok next => exact ih next

/-- The chunks among the results of `recv`. -/
def chunks : List Recv → List Bytes
  | [] => []
  | .timeout :: more => chunks more
  | .data chunk :: more => chunk :: chunks more

/-- A chunk that is not UTF-8 by itself makes `_consume` raise. -/
theorem valid_of_consume {recvs : List Recv} {buffer : List Char} {seen : Consumed} {m : List Char × Consumed}
    (returned : consume outside recvs buffer seen = .ok m) : ∀ chunk ∈ chunks recvs, Utf8.Valid chunk := by
  induction recvs generalizing buffer seen with
  | nil => exact List.forall_mem_nil _
  | cons recv more ih =>
    cases recv with
    | timeout => exact ih returned
    | data first =>
      unfold consume at returned
      split at returned
      · cases returned
      · cases decoded : Utf8.decode first with
        | none =>
          rw [decoded] at returned
          cases returned
        | some text =>
          rw [decoded] at returned
          obtain ⟨middle, -, rest⟩ := bind_eq_ok_iff.mp returned
          exact List.forall_mem_cons.mpr ⟨⟨text, Utf8.encode_of_decode decoded⟩, ih rest⟩

/-- When every chunk is UTF-8 by itself, the chunks only matter together. -/
theorem consume_eq {recvs : List Recv} (solid : ∀ chunk ∈ chunks recvs, chunk ≠ [])
    (valid : ∀ chunk ∈ chunks recvs, Utf8.Valid chunk) :
    ∃ text, Utf8.encode text = (chunks recvs).flatten ∧ ∀ buffer seen, '\n' ∉ buffer →
      consume outside recvs buffer seen = ((segments '\n' (buffer ++ text)).foldlM (take_text outside) seen).map
        fun last => (unfinished '\n' (buffer ++ text), last) := by
  induction recvs with
  | nil =>
    refine ⟨[], rfl, fun buffer seen absent => ?_⟩
    rw [List.append_nil, segments_of_not_mem absent, unfinished_of_not_mem absent]
    rfl
  | cons recv more ih =>
    cases recv with
    | timeout => exact ih solid valid
    | data chunk =>
      rw [chunks, List.forall_mem_cons] at solid valid
      obtain ⟨text, encoded, rest⟩ := ih solid.2 valid.2
      obtain ⟨first, rfl⟩ := valid.1
      refine ⟨first ++ text, by rw [Utf8.encode_append, encoded, chunks, List.flatten_cons], fun buffer seen _ => ?_⟩
      rw [consume, if_neg solid.1, Utf8.decode_encode]
      dsimp only
      rw [split_lines_eq, ← List.append_assoc, segments_append (buffer ++ first) text,
        unfinished_append (buffer ++ first) text, List.foldlM_append]
      cases (segments '\n' (buffer ++ first)).foldlM (take_text outside) seen with
      | error raised => rfl
      | ok middle => exact rest _ middle (not_mem_unfinished _)

/-- The line that `send_line` puts on the connection for an event. -/
def ServerEvent.wireLine (event : ServerEvent) : Bytes := event.to_json ++ [newline]

/-- The text of a received stream of lines splits into the texts of these lines. -/
theorem segments_of_lines {events : List ServerEvent} {tail : Bytes} (unended : newline ∉ tail) {text : List Char}
    (bytes : Utf8.encode text = events.flatMap ServerEvent.wireLine ++ tail) :
    List.Forall₂ (fun line event => Utf8.encode line = ServerEvent.to_json event) (segments '\n' text) events := by
  have ending : '\n'.toNat < 128 := by decide
  induction events generalizing text with
  | nil =>
    rw [List.flatMap_nil, List.nil_append] at bytes
    have absent : '\n' ∉ text := fun member => unended (bytes ▸ Utf8.mem_encode ending member)
    rw [segments_of_not_mem absent]
    exact .nil
  | cons event events ih =>
    rw [List.flatMap_cons, ServerEvent.wireLine, List.append_assoc, List.append_assoc, List.singleton_append] at bytes
    obtain ⟨⟨line, encoded⟩, more, rest⟩ := Utf8.Valid.split (by decide) ⟨text, bytes⟩
    have whole : Utf8.encode text = Utf8.encode (line ++ '\n' :: more) := by
      have one : String.utf8EncodeChar '\n' = [newline] := by decide
      rw [bytes, Utf8.encode_append, Utf8.encode_cons, encoded, rest, one]
      rfl
    have absent : '\n' ∉ line := fun member =>
      event.newline_not_mem (encoded ▸ Utf8.mem_encode ending member)
    rw [Utf8.encode_injective whole, segments_cut absent]
    exact .cons encoded (ih rest)

theorem ServerEvent.loads_of_decodes {event : ServerEvent} (decodes : (loads event.to_json).isSome) :
    loads event.to_json = some event.toObject := by
  rw [loads_to_json] at decodes ⊢
  split at decodes
  · rename_i clean
    rw [if_pos clean]
  · cases decodes

/-- The line of an event that decodes is handled, and `_handle_event` gets its value. -/
theorem take_text_event {event : ServerEvent} (decodes : (loads event.to_json).isSome) {line : List Char}
    (encoded : Utf8.encode line = event.to_json) (seen : Consumed) :
    ∃ state, take_text outside seen line = .ok ⟨state, seen.calls ++ [event.toObject]⟩ ∧
      handle_event (outside seen.calls.length).1 (outside seen.calls.length).2 event.toObject seen.state = .ok state := by
  have brace : '\x7b' ∈ line := by
    refine Utf8.mem_of_mem_encode (by decide) ?_
    rw [encoded]
    cases event <;> exact List.mem_cons_self
  have solid : ¬ line.all pyspace = true := fun all =>
    absurd (List.all_eq_true.mp all _ brace) (by decide)
  have handled := handle_event_toObject (outside seen.calls.length).1 (outside seen.calls.length).2 event seen.state
  refine ⟨_, ?_, handled⟩
  rw [take_text, if_neg solid, encoded, event.loads_of_decodes decodes]
  dsimp only
  rw [handled]

theorem take_texts_events {lines : List (List Char)} {events : List ServerEvent}
    (decode : ∀ event ∈ events, (loads (ServerEvent.to_json event)).isSome)
    (texts : List.Forall₂ (fun line event => Utf8.encode line = ServerEvent.to_json event) lines events)
    (seen : Consumed) :
    ∃ last, lines.foldlM (take_text outside) seen = .ok last ∧
      last.calls = seen.calls ++ events.map ServerEvent.toObject ∧
      handle_events (fun i => outside (seen.calls.length + i)) (events.map ServerEvent.toObject) seen.state =
        .ok last.state := by
  induction texts generalizing seen with
  | nil => exact ⟨seen, rfl, (List.append_nil _).symm, rfl⟩
  | @cons line event lines events encoded _ ih =>
    obtain ⟨state, taken, handled⟩ := take_text_event outside (decode event List.mem_cons_self) encoded seen
    obtain ⟨last, rest, calls, states⟩ := ih (fun e member => decode e (List.mem_cons_of_mem event member))
      ⟨state, seen.calls ++ [event.toObject]⟩
    refine ⟨last, ?_, ?_, ?_⟩
    · rw [List.foldlM_cons, taken]
      exact rest
    · rw [calls, List.append_assoc]
      rfl
    · rw [List.map_cons, handle_events, Nat.add_zero, handled]
      change handle_events (fun i => outside (seen.calls.length + (i + 1))) _ state = _
      simpa only [List.length_append, List.length_singleton, Nat.add_assoc, Nat.add_comm 1] using states

end Consume

/-- Lines of the server that decode, cut anywhere and with timeouts in between,
and perhaps the start of a further line: `_consume` calls `_handle_event` with
the decoded value of each line, in order and once, exactly when no cut falls
inside a character, that is, when every chunk is UTF-8 by itself. -/
theorem lines_consumed_iff_chunks_valid (outside : ℕ → Bytes × Json) (state : DashboardState)
    {events : List ServerEvent} {tail : Bytes} {recvs : List Recv}
    (decode : ∀ event ∈ events, (loads (ServerEvent.to_json event)).isSome) (unended : newline ∉ tail)
    (solid : ∀ chunk ∈ chunks recvs, chunk ≠ [])
    (bytes : (chunks recvs).flatten = events.flatMap ServerEvent.wireLine ++ tail) :
    (∃ buffer last, consume outside recvs [] ⟨state, []⟩ = .ok (buffer, last) ∧
      last.calls.map some = events.map fun event => loads event.to_json) ↔
    ∀ chunk ∈ chunks recvs, Utf8.Valid chunk := by
  constructor
  · rintro ⟨buffer, last, returned, -⟩
    exact valid_of_consume outside returned
  · intro valid
    obtain ⟨text, encoded, consumed⟩ := consume_eq outside solid valid
    obtain ⟨last, taken, calls, -⟩ := take_texts_events outside decode
      (segments_of_lines unended (encoded.trans bytes)) ⟨state, []⟩
    refine ⟨unfinished '\n' text, last, ?_, ?_⟩
    · rw [consumed [] _ List.not_mem_nil, List.nil_append, taken]
      rfl
    · rw [calls, List.nil_append, List.map_map]
      exact List.map_congr_left fun event member => (ServerEvent.loads_of_decodes (decode event member)).symm

theorem lines_consumed_iff_chunks_valid_ack :
    ∃ (events : List ServerEvent) (recvs : List Recv), events.length = 1 ∧ recvs.length = 3 ∧ ∃ buffer last,
      consume (fun _ => ([], .null)) recvs [] ⟨{ aws := .null }, []⟩ = .ok (buffer, last) ∧
        last.calls.map some = events.map fun event => loads (ServerEvent.to_json event) := by
  let events := [ServerEvent.ack (ascii "registered as dashboard")]
  let recvs : List Recv := [.data (ascii "\x7b\"type\":\"ac"), .timeout,
    .data (ascii "k\",\"message\":\"registered as dashboard\"\x7d\n")]
  have decode : ∀ event ∈ events, (loads (ServerEvent.to_json event)).isSome :=
    List.forall_mem_singleton.mpr (by decide +kernel)
  have solid : ∀ chunk ∈ chunks recvs, chunk ≠ [] := by decide
  have bytes : (chunks recvs).flatten = events.flatMap ServerEvent.wireLine ++ [] := by decide +kernel
  have small : ∀ chunk ∈ chunks recvs, chunk.all (fun ch => ch.toNat < 128) = true := by decide +kernel
  exact ⟨events, recvs, rfl, rfl, (lines_consumed_iff_chunks_valid _ _ decode List.not_mem_nil solid bytes).mpr
    fun chunk member => Utf8.valid_ascii (by simpa using small chunk member)⟩

/-- A chat text of one accented character, cut between its two bytes. -/
theorem cut_character_raises :
    ¬ ∀ outside state (events : List ServerEvent) recvs,
      (∀ event ∈ events, Utf8.Valid event.to_json ∧ (loads event.to_json).isSome) →
      (∀ chunk ∈ chunks recvs, chunk ≠ []) → (chunks recvs).flatten = events.flatMap ServerEvent.wireLine →
      ∃ buffer last, consume outside recvs [] ⟨state, []⟩ = .ok (buffer, last) ∧
        last.calls.map some = events.map fun event => loads event.to_json := by
  intro consumes
  let event := ServerEvent.chat ⟨ascii "ana", [0xC3, 0xA9], ascii "2024-01-02T03:04:05Z"⟩
  let recvs : List Recv := [.data (ascii "\x7b\"type\":\"chat\",\"from\":\"ana\",\"text\":\"" ++ [0xC3]),
    .data (0xA9 :: ascii "\",\"timestamp\":\"2024-01-02T03:04:05Z\"\x7d\n")]
  have valid : Utf8.Valid event.to_json := by
    have known : (Utf8.decode event.to_json).isSome := by decide +kernel
    obtain ⟨text, decoded⟩ := Option.isSome_iff_exists.mp known
    exact ⟨text, Utf8.encode_of_decode decoded⟩
  obtain ⟨buffer, last, returned, -⟩ := consumes (fun _ => ([], .null)) { aws := .null } [event] recvs
    (List.forall_mem_singleton.mpr ⟨valid, by decide +kernel⟩) (by decide) (by decide +kernel)
  have broken : Utf8.decode (ascii "\x7b\"type\":\"chat\",\"from\":\"ana\",\"text\":\"" ++ [0xC3]) = none := by
    decide +kernel
  rw [consume, if_neg (by decide), broken] at returned
  cases returned

end SysNetMon
