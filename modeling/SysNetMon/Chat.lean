import SysNetMon.EventLines
import SysNetMon.Extraction
import SysNetMon.LineFraming
import SysNetMon.PythonText

/-!
What a user types at the dashboard: from `send_chat` and `send_command` to the
server, and back in a chat event.
-/

namespace SysNetMon
open Bytes KeySearch Json PyStr

/-- `str` of an ASCII literal. -/
def pyLiteral (s : String) : PyStr := s.toList.map fun c => Fin.ofNat 0x110000 c.toNat

def send_command (text : PyStr) : List (String × PyStr) := [("type", pyLiteral "command"), ("text", text)]

def send_chat (sender text : PyStr) : List (String × PyStr) :=
  [("type", pyLiteral "chat"), ("from", sender), ("text", text)]

/-- The bytes that `_send` writes for a message. -/
def raw (message : List (String × PyStr)) : Bytes := dumps message ++ [newline]

/-- The name and the value of a field as they stand on the wire. -/
def written (f : String × PyStr) : Bytes × Bytes := (ascii f.1, quote :: (dumps_str f.2 ++ [quote]))

theorem dumps_eq (fields : List (String × PyStr)) : dumps fields = objectText [32] (fields.map written) := by
  have member (f : String × PyStr) : dumps.member f = field [32] (written f) := by
    have start : ascii "\"" = [quote] := by decide
    have middle : ascii "\": \"" = [quote, colon, 32, quote] := by decide
    rw [dumps.member, start, middle, field, written]
    simp
  have rest (fs : List (String × PyStr)) :
      fs.flatMap (fun f => ascii ", " ++ dumps.member f) ++ ascii "\x7d" = closing [32] (fs.map written) := by
    induction fs with
    | nil => decide
    | cons f fs ih =>
      have gap : ascii ", " = [comma, 32] := by decide
      rw [List.flatMap_cons, List.append_assoc, ih, member, gap, List.map_cons, closing]
      simp
  cases fields with
  | nil => decide
  | cons f fs =>
    have start : ascii "\x7b" = [123] := by decide
    rw [dumps, List.append_assoc, List.append_assoc, rest, member, start, List.map_cons, objectText]
    rfl

theorem printable_dumps {fields : List (String × PyStr)} (names : ∀ f ∈ fields, Printable (ascii f.1)) :
    Printable (dumps fields) := by
  have member {f : String × PyStr} (inFields : f ∈ fields) : Printable (dumps.member f) :=
    ((((show Printable (ascii "\"") by decide).append (names f inFields)).append
      (show Printable (ascii "\": \"") by decide)).append (printable_dumps_str f.2)).append
      (show Printable (ascii "\"") by decide)
  cases fields with
  | nil => decide
  | cons f fs =>
    refine (((show Printable (ascii "\x7b") by decide).append (member List.mem_cons_self)).append ?_).append
      (show Printable (ascii "\x7d") by decide)
    intro ch inRest
    obtain ⟨g, inFields, inner⟩ := List.mem_flatMap.mp inRest
    exact (show Printable (ascii ", ") by decide).append (member (List.mem_cons_of_mem f inFields)) ch inner

/-- A text between braces has no blanks to trim. -/
theorem trim_braces (s : Bytes) : trim (123 :: (s ++ [125])) = 123 :: (s ++ [125]) := by
  rw [trim, List.dropWhile_cons_of_neg (by decide), ← List.cons_append,
    List.rdropWhile_concat_neg _ _ _ (by decide)]

/-- The server takes a message off the wire as the line that was written. -/
theorem linesOf_raw {fields : List (String × PyStr)} (names : ∀ f ∈ fields, Printable (ascii f.1)) :
    linesOf (raw fields) = [dumps fields] := by
  have absent : newline ∉ dumps fields := fun member =>
    absurd (printable_dumps names newline member).1 (by decide)
  obtain ⟨inner, shape⟩ : ∃ inner, dumps fields = 123 :: (inner ++ [125]) := by
    cases fields with
    | nil => exact ⟨[], by decide⟩
    | cons f fs =>
      refine ⟨dumps.member f ++ fs.flatMap (fun g => ascii ", " ++ dumps.member g), ?_⟩
      have start : ascii "\x7b" = [123] := by decide
      have finish : ascii "\x7d" = [125] := by decide
      rw [dumps, start, finish]
      rfl
  have same : trim (dumps fields) = dumps fields := by rw [shape, trim_braces]
  rw [raw, linesOf_cut absent, same, if_neg (by rw [shape]; exact List.cons_ne_nil _ _), linesOf_of_not_mem
    List.not_mem_nil]
  rfl

theorem separate_written {fields : List (String × PyStr)}
    (words : ∀ name ∈ fields.map fun f => ascii f.1, Word name) (distinct : (fields.map fun f => ascii f.1).Nodup) :
    Separate (fields.map written) := by
  have names : (fields.map written).map Prod.fst = fields.map fun f => ascii f.1 := List.map_map
  refine ⟨names ▸ words, fun f member => ?_, names ▸ distinct⟩
  obtain ⟨g, -, rfl⟩ := List.mem_map.mp member
  exact .quoted (escaped_dumps_str g.2)

/-- The part of a string that the server reads: up to the first quote on the wire. -/
def wireText (s : PyStr) : Bytes := (dumps_str s).takeWhile fun ch => ch != quote

theorem printable_wireText (s : PyStr) : Printable (wireText s) := fun ch member =>
  printable_dumps_str s ch (List.takeWhile_subset _ member)

theorem json_get_string_dumps {fields : List (String × PyStr)}
    (words : ∀ name ∈ fields.map fun f => ascii f.1, Word name) (distinct : (fields.map fun f => ascii f.1).Nodup)
    {name : String} {s : PyStr} (member : (name, s) ∈ fields) :
    json_get_string (dumps fields) (ascii name) = some (wireText s) := by
  rw [dumps_eq]
  exact json_get_string_objectText (separate_written words distinct) (List.forall_mem_singleton.mpr (by decide))
    (List.mem_map_of_mem member)

theorem json_get_string_send_chat {sender text : PyStr} {name : String} {s : PyStr}
    (member : (name, s) ∈ send_chat sender text) :
    json_get_string (dumps (send_chat sender text)) (ascii name) = some (wireText s) := by
  have names : (send_chat sender text).map (fun f => ascii f.1) = [ascii "type", ascii "from", ascii "text"] := rfl
  refine json_get_string_dumps ?_ ?_ member
  · rw [names]
    decide
  · rw [names]
    decide

theorem json_get_string_send_command {text : PyStr} {name : String} {s : PyStr}
    (member : (name, s) ∈ send_command text) :
    json_get_string (dumps (send_command text)) (ascii name) = some (wireText s) := by
  have names : (send_command text).map (fun f => ascii f.1) = [ascii "type", ascii "text"] := rfl
  refine json_get_string_dumps ?_ ?_ member
  · rw [names]
    decide
  · rw [names]
    decide

/-- A chat line is broadcast with the two texts as the server reads them. -/
theorem handle_line_send_chat {platform : Platform} {server : MonitorServer} {index : ℕ} {client : ClientConnection}
    (atIndex : server.clients_[index]? = some client) (clock : ℕ → Tm) (sender text : PyStr) :
    server.handle_line platform clock index (dumps (send_chat sender text)) =
      .ok (server, [server.broadcast_to_dashboards
        (.chat ⟨wireText sender, wireText text, iso_timestamp (clock 0)⟩)]) := by
  have type : json_get_string (dumps (send_chat sender text)) (ascii "type") = some (ascii "chat") := by
    rw [json_get_string_send_chat List.mem_cons_self]
    decide
  have chat : server.chat clock client (dumps (send_chat sender text)) = server.broadcast_to_dashboards
      (.chat ⟨wireText sender, wireText text, iso_timestamp (clock 0)⟩) := by
    rw [MonitorServer.chat, json_get_string_send_chat (s := sender) (by simp [send_chat]),
      json_get_string_send_chat (s := text) (by simp [send_chat])]
    rfl
  rw [MonitorServer.handle_line, atIndex]
  dsimp only
  rw [type, Option.getD_some, if_neg (by decide), if_neg (fun both => absurd both.1 (by decide)), if_neg (by decide),
    if_pos rfl, chat]

/-- A dashboard decodes the chat event to exactly these two texts. -/
theorem loads_chat (sender text : PyStr) (now : Tm) :
    loads (ServerEvent.chat ⟨wireText sender, wireText text, iso_timestamp now⟩).to_json =
      some (.obj [(ascii "type", .str (ascii "chat")), (ascii "from", .str (wireText sender)),
        (ascii "text", .str (wireText text)), (ascii "timestamp", .str (iso_timestamp now))]) := by
  rw [ServerEvent.loads_to_json, if_pos]
  · rfl
  · have clean {s : Bytes} (printable : Printable s) : Clean s := (sound_of_printable printable).1
    simp only [ServerEvent.toDoc, strings, stringsMembers, List.append_nil, List.cons_append, List.nil_append,
      List.forall_mem_cons]
    exact ⟨by decide, by decide, by decide, clean (printable_wireText sender), by decide,
      clean (printable_wireText text), by decide, clean (printable_iso_timestamp now), List.forall_mem_nil _⟩

/-- What `send_chat` writes is one line for the server, which broadcasts one
event for it, and the value that a dashboard decodes has these two texts. -/
def ChatArrives (platform : Platform) (server : MonitorServer) (clock : ℕ → Tm) (index : ℕ) (sender text : PyStr) :
    Prop :=
  ∃ line event fields, linesOf (raw (send_chat sender text)) = [line] ∧
    server.handle_line platform clock index line = .ok (server, [server.broadcast_to_dashboards event]) ∧
    loads event.to_json = some (.obj fields) ∧ member (ascii "type") fields = some (.str (ascii "chat")) ∧
    member (ascii "from") fields = some (.str (encode sender)) ∧
    member (ascii "text") fields = some (.str (encode text))

/-- What `send_command` writes is one line for the server, which calls
`handle_command` for it with this text. -/
def CommandArrives (platform : Platform) (server : MonitorServer) (clock : ℕ → Tm) (index : ℕ)
    (client : ClientConnection) (text : PyStr) : Prop :=
  ∃ line, linesOf (raw (send_command text)) = [line] ∧
    server.handle_line platform clock index line = server.handle_command platform clock client (lineText line) ∧
    lineText line = encode text

theorem chat_arrives_iff {platform : Platform} {server : MonitorServer} {index : ℕ} {client : ClientConnection}
    (atIndex : server.clients_[index]? = some client) (clock : ℕ → Tm) (sender text : PyStr) :
    ChatArrives platform server clock index sender text ↔ wireText sender = encode sender ∧ wireText text = encode text := by
  have one : linesOf (raw (send_chat sender text)) = [dumps (send_chat sender text)] := linesOf_raw <| by
    simp only [send_chat, List.forall_mem_cons]
    exact ⟨by decide, by decide, by decide, List.forall_mem_nil _⟩
  have handled := @handle_line_send_chat platform server index client atIndex clock sender text
  have decoded := loads_chat sender text (clock 0)
  constructor
  · rintro ⟨line, event, fields, same, broadcast, loaded, -, fromIs, textIs⟩
    rw [one] at same
    cases same
    rw [handled] at broadcast
    cases broadcast
    rw [decoded] at loaded
    cases loaded
    have fromWire := Option.some.inj fromIs
    have textWire := Option.some.inj textIs
    exact ⟨by simpa using fromWire, by simpa using textWire⟩
  · rintro ⟨fromSame, textSame⟩
    refine ⟨_, _, _, one, handled, decoded, rfl, ?_, ?_⟩
    · rw [← fromSame]
      rfl
    · rw [← textSame]
      rfl

theorem command_arrives_iff {platform : Platform} {server : MonitorServer} {index : ℕ} {client : ClientConnection}
    (atIndex : server.clients_[index]? = some client) (clock : ℕ → Tm) (text : PyStr) :
    CommandArrives platform server clock index client text ↔ wireText text = encode text := by
  have one : linesOf (raw (send_command text)) = [dumps (send_command text)] := linesOf_raw <| by
    simp only [send_command, List.forall_mem_cons]
    exact ⟨by decide, by decide, List.forall_mem_nil _⟩
  have type : json_get_string (dumps (send_command text)) (ascii "type") = some (ascii "command") := by
    rw [json_get_string_send_command List.mem_cons_self]
    decide
  have received : lineText (dumps (send_command text)) = wireText text := by
    rw [lineText, json_get_string_send_command (s := text) (by simp [send_command])]
    rfl
  have handled : server.handle_line platform clock index (dumps (send_command text)) =
      server.handle_command platform clock client (lineText (dumps (send_command text))) := by
    rw [MonitorServer.handle_line, atIndex]
    dsimp only
    rw [type, Option.getD_some, if_neg (by decide), if_neg (fun both => absurd both.1 (by decide)), if_pos rfl]
    rfl
  constructor
  · rintro ⟨line, same, -, textIs⟩
    rw [one] at same
    cases same
    rwa [received] at textIs
  · intro same
    exact ⟨_, one, handled, received.trans same⟩

/-- In every state of the server, a chat message and a command arrive as they
were typed exactly when they are plain: printable ASCII without quotes and backslashes. -/
theorem typed_text_arrives_iff_plain (platform : Platform) {server : MonitorServer} {index : ℕ}
    {client : ClientConnection} (atIndex : server.clients_[index]? = some client) (clock : ℕ → Tm)
    (sender text : PyStr) :
    (ChatArrives platform server clock index sender text ↔ PyStr.Plain sender ∧ PyStr.Plain text) ∧
      (CommandArrives platform server clock index client text ↔ PyStr.Plain text) := by
  rw [chat_arrives_iff atIndex, command_arrives_iff atIndex, wireText, wireText, takeWhile_dumps_str_eq_iff,
    takeWhile_dumps_str_eq_iff]
  exact ⟨Iff.rfl, Iff.rfl⟩

theorem typed_text_arrives_iff_plain_greeting :
    ∃ platform server clock client, ChatArrives platform server clock 0 (pyLiteral "me") (pyLiteral "hello") ∧
      CommandArrives platform server clock 0 client (pyLiteral "/alert CPU>80%") := by
  let client : ClientConnection := { fd := 4, peer_label := [] }
  let server : MonitorServer := { clients_ := [client] }
  let platform : Platform := ⟨fun _ => false⟩
  let clock : ℕ → Tm := fun _ => ⟨2024, 1, 2, 3, 4, 5⟩
  have atIndex : server.clients_[0]? = some client := rfl
  exact ⟨platform, server, clock, client,
    (typed_text_arrives_iff_plain platform atIndex clock _ (pyLiteral "hello")).1.mpr (by decide),
    (typed_text_arrives_iff_plain platform atIndex clock [] _).2.mpr (by decide)⟩

/-- A quote ends a text: `say "hi"` arrives as `say \`. -/
theorem quoted_text_cut_short :
    (¬ ∀ platform server clock index client sender text, server.clients_[index]? = some client → sender ≠ [] →
      text ≠ [] → ChatArrives platform server clock index sender text ∧
        CommandArrives platform server clock index client text) ∧
    wireText (pyLiteral "say \"hi\"") = ascii "say \\" := by
  refine ⟨fun arrives => ?_, by decide⟩
  let client : ClientConnection := { fd := 4, peer_label := [] }
  have atIndex : ({ clients_ := [client] } : MonitorServer).clients_[0]? = some client := rfl
  have both := arrives ⟨fun _ => false⟩ { clients_ := [client] } (fun _ => ⟨2024, 1, 2, 3, 4, 5⟩) 0 client
    (pyLiteral "me") (pyLiteral "say \"hi\"") atIndex (by decide) (by decide)
  exact absurd ((command_arrives_iff atIndex _ _).mp both.2) (by decide)

end SysNetMon
