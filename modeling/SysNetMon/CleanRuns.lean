import SysNetMon.AlertEdges
import SysNetMon.EventLines

namespace SysNetMon
open Bytes Decimal Json KeySearch Regex

/-- Where an extracted string stands in the line. -/
theorem json_get_string_some {payload key s : Bytes} (found : json_get_string payload key = some s) :
    ∃ before after, payload = before ++ quote :: (s ++ quote :: after) ∧ quote ∉ s := by
  obtain ⟨captures, searched, first⟩ := Option.bind_eq_some_iff.mp found
  obtain ⟨before, w, after, rfl, matched⟩ := matches_of_search searched
  unfold keyValue at matched
  obtain ⟨name, _, _, _, rfl, rfl, isName, afterName⟩ := matches_seq_iff.mp matched
  obtain ⟨-, rfl⟩ := eq_of_matches_lit isName
  obtain ⟨gap, _, _, _, rfl, rfl, isGap, afterGap⟩ := matches_seq_iff.mp afterName
  obtain ⟨-, rfl⟩ := matches_star_iff.mp isGap
  obtain ⟨mark, _, _, _, rfl, rfl, isMark, afterMark⟩ := matches_seq_iff.mp afterGap
  obtain ⟨_, -, -, rfl⟩ := matches_char_iff.mp isMark
  obtain ⟨gap', _, _, _, rfl, rfl, isGap', value⟩ := matches_seq_iff.mp afterMark
  obtain ⟨-, rfl⟩ := matches_star_iff.mp isGap'
  unfold stringValue at value
  obtain ⟨_, _, _, _, rfl, rfl, isOpening, afterOpening⟩ := matches_seq_iff.mp value
  obtain ⟨opening, openingEq, rfl, rfl⟩ := matches_char_iff.mp isOpening
  obtain ⟨inner, _, _, _, rfl, rfl, isInner, isClosing⟩ := matches_seq_iff.mp afterOpening
  obtain ⟨_, rfl, innerMatched⟩ := matches_group_iff.mp isInner
  obtain ⟨all, rfl⟩ := matches_star_iff.mp innerMatched
  obtain ⟨closing, closingEq, rfl, rfl⟩ := matches_char_iff.mp isClosing
  cases first
  rw [beq_iff_eq.mp openingEq, beq_iff_eq.mp closingEq]
  exact ⟨before ++ (name ++ (gap ++ (mark ++ gap'))), after, by simp, fun member => by simpa using all _ member⟩

theorem json_get_string_valid {payload key s : Bytes} (valid : Utf8.Valid payload)
    (found : json_get_string payload key = some s) : Utf8.Valid s := by
  obtain ⟨before, after, rfl, -⟩ := json_get_string_some found
  exact ((valid.split (by decide)).2.split (by decide)).1

theorem Sound.getD {found : Option Bytes} {default : Bytes} (some_ : ∀ s, found = some s → Sound s)
    (none_ : Sound default) : Sound (found.getD default) := by
  cases found with
  | none => exact none_
  | some s => exact some_ s rfl

theorem isspace_ascii {ch : UInt8} (space : isspace ch = true) : ch.toNat < 128 := by
  rw [isspace_iff] at space
  omega

theorem Sound.trim {s : Bytes} (sound : Sound s) : Sound (trim s) :=
  ⟨fun ch member => sound.1 ch ((List.dropWhile_suffix _).subset ((List.rdropWhile_prefix _ _).subset member)),
    (sound.2.dropWhile fun _ => isspace_ascii).rdropWhile fun _ => isspace_ascii⟩

/-- What changes becomes a lower case letter. -/
theorem tolower_cases (ch : UInt8) :
    tolower ch = ch ∨ 97 ≤ (tolower ch).toNat ∧ (tolower ch).toNat ≤ 122 := by
  unfold tolower
  split
  · rename_i upper
    simp only [Bool.and_eq_true, decide_eq_true_eq, UInt8.le_iff_toNat_le, UInt8.reduceToNat] at upper
    simp only [UInt8.toNat_add, UInt8.reduceToNat]
    exact Or.inr (by omega)
  · exact Or.inl rfl

theorem Sound.lower_copy {s : Bytes} (sound : Sound s) : Sound (lower_copy s) := by
  constructor
  · intro ch member
    obtain ⟨d, inS, rfl⟩ := List.mem_map.mp member
    rcases tolower_cases d with same | ⟨low, -⟩
    · rw [same]
      exact sound.1 d inS
    · have large : ¬ tolower d < 32 := by
        simp only [UInt8.lt_iff_toNat_lt, UInt8.reduceToNat]
        omega
      simp [israwcontrol, large]
  · have text : SysNetMon.lower_copy s = s.flatMap fun ch => [tolower ch] := by
      rw [SysNetMon.lower_copy, List.map_eq_flatMap]
    rw [text]
    refine sound.2.flatMap (fun ch small d member => ?_) fun ch large => ?_
    · rw [List.mem_singleton.mp member]
      rcases tolower_cases ch with same | ⟨-, high⟩
      · rwa [same]
      · omega
    · have noUpper : ¬ (65 ≤ ch && ch ≤ 90) = true := by
        simp only [Bool.and_eq_true, decide_eq_true_eq, UInt8.le_iff_toNat_le, UInt8.reduceToNat]
        omega
      rw [tolower, if_neg noUpper]

/-- Every string of the document is sound. -/
def SoundDoc (d : Doc) : Prop := ∀ s ∈ strings d, Sound s

theorem soundDoc_str {s : Bytes} (sound : Sound s) : SoundDoc (.str s) := by
  intro t member
  rwa [List.mem_singleton.mp member]

theorem soundDoc_number {d : Doc} (number : strings d = []) : SoundDoc d := by
  intro s member
  rw [number] at member
  cases member

theorem soundDoc_arr {items : List Doc} (all : ∀ d ∈ items, SoundDoc d) : SoundDoc (.arr items) := by
  change ∀ s ∈ stringsItems items, Sound s
  induction items with
  | nil => exact fun s member => nomatch member
  | cons d items ih =>
    intro s member
    rcases List.mem_append.mp member with first | later
    · exact all d List.mem_cons_self s first
    · exact ih (fun e inItems => all e (List.mem_cons_of_mem d inItems)) s later

theorem soundDoc_nil : SoundDoc (.obj []) := fun _ member => nomatch member

theorem soundDoc_cons {name : String} {d : Doc} {ms : List (Bytes × Doc)} (printable : Printable (ascii name))
    (first : SoundDoc d) (others : SoundDoc (.obj ms)) : SoundDoc (.obj ((ascii name, d) :: ms)) := by
  intro s member
  rcases List.mem_cons.mp member with rfl | inner
  · exact sound_of_printable printable
  · exact (List.mem_append.mp inner).elim (first s) (others s)

theorem soundDoc_tagged {type : String} {ms : List (Bytes × Doc)} (printable : Printable (ascii type))
    (others : SoundDoc (.obj ms)) : SoundDoc (.obj ((ascii "type", .str (ascii type)) :: ms)) :=
  soundDoc_cons (by decide) (soundDoc_str (sound_of_printable printable)) others

theorem soundDoc_metric {metric : MetricSnapshot} (host : Sound metric.host) (timestamp : Sound metric.timestamp) :
    SoundDoc (metricDoc metric) :=
  soundDoc_cons (by decide) (soundDoc_str host) <|
  soundDoc_cons (by decide) (soundDoc_str timestamp) <|
  soundDoc_cons (by decide) (soundDoc_number rfl) <|
  soundDoc_cons (by decide) (soundDoc_number rfl) <|
  soundDoc_cons (by decide) (soundDoc_number rfl) <|
  soundDoc_cons (by decide) (soundDoc_number rfl) <|
  soundDoc_cons (by decide) (soundDoc_number rfl) <|
  soundDoc_cons (by decide) (soundDoc_number rfl) <|
  soundDoc_cons (by decide) (soundDoc_number rfl) <|
  soundDoc_cons (by decide) (soundDoc_number rfl) <|
  soundDoc_cons (by decide) (soundDoc_number rfl) soundDoc_nil

theorem soundDoc_rule {rule : AlertRule} (command : Sound rule.raw_command) (key : Sound rule.metric_key) :
    SoundDoc (ruleDoc rule) :=
  soundDoc_cons (by decide) (soundDoc_str command) <|
  soundDoc_cons (by decide) (soundDoc_str key) <|
  soundDoc_cons (by decide) (soundDoc_number rfl) soundDoc_nil

/-- The strings of a rule are sound. -/
def AlertRule.Sound (rule : AlertRule) : Prop :=
  SysNetMon.Sound rule.raw_command ∧ SysNetMon.Sound rule.metric_key ∧ SysNetMon.Sound rule.display_metric

theorem metricOfToken_printable {token key display : Bytes} (named : metricOfToken token = some (key, display)) :
    Printable key ∧ Printable display := by
  unfold metricOfToken at named
  split at named
  · cases named
    decide
  · split at named
    · cases named
      decide
    · split at named
      · cases named
        decide
      · split at named
        · cases named
          decide
        · split at named
          · cases named
            decide
          · cases named

theorem parse_alert_command_sound {platform : Platform} {text : Bytes} {rule : AlertRule}
    (parsed : parse_alert_command platform text = .ok (some rule)) (sound : Sound text) : rule.Sound := by
  obtain ⟨parts, rfl, raw, -, -, named⟩ := parse_alert_command_some parsed
  obtain ⟨key, display⟩ := metricOfToken_printable named
  refine ⟨?_, sound_of_printable key, sound_of_printable display⟩
  rw [raw, ← parts.trim_text]
  exact sound.trim

/-- Every string that the server holds is sound. -/
structure MonitorServer.Sound (server : MonitorServer) : Prop where
  clients : ∀ client ∈ server.clients_, SysNetMon.Sound client.peer_label ∧ SysNetMon.Sound client.declared_host
  metrics : ∀ entry ∈ server.latest_metrics_.entries,
    SysNetMon.Sound entry.2.host ∧ SysNetMon.Sound entry.2.timestamp
  rules : ∀ rule ∈ server.alert_rules_, rule.Sound

/-- The strings of a line that the server passes on or keeps. -/
def heldStrings (platform : Platform) (client : ClientConnection) (line : Bytes) : List Bytes :=
  let get := fun key => (json_get_string line (ascii key)).getD []
  if lineType line = ascii "register" then [get "role", get "host"]
  else if lineType line = ascii "metrics" ∧ client.role = .Agent then [get "host", get "timestamp"]
  else if lineType line = ascii "command" then
    match parse_alert_command platform (lineText line) with
    | .ok (some _) => [lineText line]
    | _ => []
  else if lineType line = ascii "chat" then [get "from", get "text"]
  else []

/-- The line is text, and what the server keeps of it holds no raw control character. -/
def LineSound (platform : Platform) (client : ClientConnection) (line : Bytes) : Prop :=
  Utf8.Valid line ∧ ∀ s ∈ heldStrings platform client line, Clean s

section Step
variable {platform : Platform} {server after : MonitorServer} {clock : ℕ → Tm} {index : ℕ}
  {client : ClientConnection} {line : Bytes} {outputs : List Output}

theorem sound_ascii (s : String) (printable : Printable (ascii s)) : Sound (ascii s) := sound_of_printable printable

/-- An extracted string is sound if it is among the strings the server keeps. -/
theorem LineSound.get (key : String) {default : Bytes} (sound : LineSound platform client line)
    (held : (json_get_string line (ascii key)).getD [] ∈ heldStrings platform client line)
    (otherwise : Sound default) : Sound ((json_get_string line (ascii key)).getD default) := by
  refine Sound.getD (fun s found => ⟨?_, json_get_string_valid sound.1 found⟩) otherwise
  rw [found, Option.getD_some] at held
  exact sound.2 s held

theorem soundDoc_ack {message : Bytes} (sound : Sound message) : SoundDoc (ServerEvent.ack message).toDoc :=
  soundDoc_tagged (by decide) (soundDoc_cons (by decide) (soundDoc_str sound) soundDoc_nil)

theorem soundDoc_error {message : Bytes} (sound : Sound message) : SoundDoc (ServerEvent.error message).toDoc :=
  soundDoc_tagged (by decide) (soundDoc_cons (by decide) (soundDoc_str sound) soundDoc_nil)

theorem soundDoc_chat {message : ChatMessage} (sender : Sound message.sender) (text : Sound message.text)
    (timestamp : Sound message.timestamp) : SoundDoc (ServerEvent.chat message).toDoc :=
  soundDoc_tagged (by decide) <|
  soundDoc_cons (by decide) (soundDoc_str sender) <|
  soundDoc_cons (by decide) (soundDoc_str text) <|
  soundDoc_cons (by decide) (soundDoc_str timestamp) soundDoc_nil

theorem soundDoc_rules {items : List AlertRule} (sound : ∀ rule ∈ items, rule.Sound) :
    SoundDoc (ServerEvent.rules items).toDoc := by
  refine soundDoc_tagged (by decide) (soundDoc_cons (by decide) (soundDoc_arr fun d member => ?_) soundDoc_nil)
  obtain ⟨rule, inItems, rfl⟩ := List.mem_map.mp member
  exact soundDoc_rule (sound rule inItems).1 (sound rule inItems).2.1

theorem soundDoc_snapshot (now : Tm) {metrics : AList fun _ : Bytes => MetricSnapshot}
    (sound : ∀ entry ∈ metrics.entries, Sound entry.2.host ∧ Sound entry.2.timestamp) :
    SoundDoc (ServerEvent.snapshot now metrics).toDoc := by
  refine soundDoc_tagged (by decide) <|
    soundDoc_cons (by decide) (soundDoc_str (sound_of_printable (printable_iso_timestamp now))) <|
    soundDoc_cons (by decide) (soundDoc_arr fun d member => ?_) soundDoc_nil
  obtain ⟨metric, inOrdered, rfl⟩ := List.mem_map.mp member
  obtain ⟨entry, inEntries, rfl⟩ := List.mem_map.mp inOrdered
  have inMetrics := (List.perm_insertionSort _ _).subset inEntries
  exact soundDoc_metric (sound entry inMetrics).1 (sound entry inMetrics).2

theorem soundDoc_alert {metric : MetricSnapshot} {rule : AlertRule} (now : Tm) (host : Sound metric.host)
    (sound : rule.Sound) : SoundDoc (ServerEvent.alert (alertOf now metric rule)).toDoc := by
  have message : Sound (alertOf now metric rule).message :=
    (((sound.2.2.append (sound_ascii " on " (by decide))).append host).append
      (sound_ascii " crossed threshold at " (by decide))).append (sound_of_printable (printable_format_double _))
  have data : SoundDoc (alertDoc (alertOf now metric rule)) :=
    soundDoc_cons (by decide) (soundDoc_str host) <|
    soundDoc_cons (by decide) (soundDoc_str (sound_of_printable (printable_iso_timestamp now))) <|
    soundDoc_cons (by decide) (soundDoc_str sound.2.1) <|
    soundDoc_cons (by decide) (soundDoc_str sound.2.2) <|
    soundDoc_cons (by decide) (soundDoc_number rfl) <|
    soundDoc_cons (by decide) (soundDoc_number rfl) <|
    soundDoc_cons (by decide) (soundDoc_str sound.1) <|
    soundDoc_cons (by decide) (soundDoc_str message) soundDoc_nil
  exact soundDoc_tagged (by decide) (soundDoc_cons (by decide) data soundDoc_nil)

theorem heldStrings_register (is : lineType line = ascii "register") :
    heldStrings platform client line =
      [(json_get_string line (ascii "role")).getD [], (json_get_string line (ascii "host")).getD []] := by
  rw [heldStrings, if_pos is]

theorem heldStrings_metrics (is : lineType line = ascii "metrics") (role : client.role = .Agent) :
    heldStrings platform client line =
      [(json_get_string line (ascii "host")).getD [], (json_get_string line (ascii "timestamp")).getD []] := by
  rw [heldStrings, if_neg (by rw [is]; decide), if_pos ⟨is, role⟩]

theorem heldStrings_command {rule : AlertRule} (is : lineType line = ascii "command")
    (parsed : parse_alert_command platform (lineText line) = .ok (some rule)) :
    heldStrings platform client line = [(json_get_string line (ascii "text")).getD []] := by
  have notMetrics : ¬ (lineType line = ascii "metrics" ∧ client.role = .Agent) := by
    rw [is]
    exact fun both => absurd both.1 (by decide)
  rw [heldStrings, if_neg (by rw [is]; decide), if_neg notMetrics, if_pos is, parsed, lineText]

theorem heldStrings_chat (is : lineType line = ascii "chat") :
    heldStrings platform client line =
      [(json_get_string line (ascii "from")).getD [], (json_get_string line (ascii "text")).getD []] := by
  have notMetrics : ¬ (lineType line = ascii "metrics" ∧ client.role = .Agent) := by
    rw [is]
    exact fun both => absurd both.1 (by decide)
  rw [heldStrings, if_neg (by rw [is]; decide), if_neg notMetrics, if_neg (by rw [is]; decide), if_pos is]

/-- Handling a sound line keeps the server sound and puts out only lines that can be decoded. -/
theorem Handling.sound (handling : Handling platform server clock index client line after outputs)
    (atIndex : server.clients_[index]? = some client) (held : server.Sound)
    (sound : LineSound platform client line) :
    after.Sound ∧ ∀ output ∈ outputs, SoundDoc output.event.toDoc := by
  obtain ⟨label, declared⟩ := held.clients client (List.mem_of_getElem? atIndex)
  have emptySound : Sound [] := sound_of_printable (by decide)
  cases handling with
  | register is =>
    have role := sound.get "role" (by simp [heldStrings_register is]) emptySound
    have host := sound.get "host" (by simp [heldStrings_register is]) label
    have ack := soundDoc_ack ((sound_ascii "registered as " (by decide)).append role.lower_copy)
    refine ⟨⟨?_, held.metrics, held.rules⟩, ?_⟩
    · intro other member
      obtain ⟨i, atI⟩ := List.getElem?_of_mem member
      simp only [MonitorServer.register, MonitorServer.modifyClient, List.getElem?_modify] at atI
      split at atI
      · obtain ⟨previous, atPrevious, rfl⟩ := Option.map_eq_some_iff.mp atI
        exact ⟨(held.clients previous (List.mem_of_getElem? atPrevious)).1, host⟩
      · obtain ⟨previous, atPrevious, rfl⟩ := Option.map_eq_some_iff.mp atI
        exact held.clients previous (List.mem_of_getElem? atPrevious)
    · intro output member
      rcases List.mem_cons.mp member with rfl | later
      · exact ack
      · split at later
        · simp only [List.mem_cons, List.not_mem_nil, or_false] at later
          rcases later with rfl | rfl
          · exact soundDoc_snapshot (clock 0) held.metrics
          · exact soundDoc_rules held.rules
        · cases later
  | @store metric is role read =>
    obtain ⟨hostEq, timestampEq⟩ := read_metric_strings read
    have host : Sound metric.host := by
      rw [hostEq]
      exact sound.get "host" (by simp [heldStrings_metrics is role]) declared
    have timestamp : Sound metric.timestamp := by
      rw [timestampEq]
      exact sound.get "timestamp" (by simp [heldStrings_metrics is role]) (sound_of_printable (printable_iso_timestamp _))
    refine ⟨⟨held.clients, fun entry member => ?_, held.rules⟩, fun output member => ?_⟩
    · rcases List.mem_cons.mp member with rfl | old
      · exact ⟨host, timestamp⟩
      · exact held.metrics entry ((List.kerase_sublist _ _).subset old)
    · rcases List.mem_cons.mp member with rfl | raised
      · exact soundDoc_tagged (by decide) (soundDoc_cons (by decide) (soundDoc_metric host timestamp) soundDoc_nil)
      · obtain ⟨alert, inAlerts, rfl⟩ := List.mem_map.mp raised
        obtain ⟨rule, inRules, -, now, rfl⟩ := evaluate_rules_sound inAlerts
        exact soundDoc_alert now host (held.rules rule inRules)
  | @addRule rule is parsed =>
    have text := sound.get "text" (by simp [heldStrings_command is parsed]) emptySound
    have ruleSound := parse_alert_command_sound parsed text
    have rules : ∀ other ∈ server.alert_rules_ ++ [rule], other.Sound := by
      intro other member
      rcases List.mem_append.mp member with old | new
      · exact held.rules other old
      · rw [List.mem_singleton.mp new]
        exact ruleSound
    refine ⟨⟨held.clients, held.metrics, rules⟩, fun output member => ?_⟩
    simp only [List.mem_cons, List.not_mem_nil, or_false] at member
    rcases member with rfl | rfl | rfl
    · exact soundDoc_chat (sound_ascii "system" (by decide))
        ((sound_ascii "Registered alert rule: " (by decide)).append ruleSound.1)
        (sound_of_printable (printable_iso_timestamp _))
    · exact soundDoc_rules rules
    · exact soundDoc_ack ((sound_ascii "rule added: " (by decide)).append ruleSound.1)
  | listRules is =>
    refine ⟨held, fun output member => ?_⟩
    rw [List.mem_singleton.mp member]
    exact soundDoc_rules held.rules
  | countHosts is =>
    refine ⟨held, fun output member => ?_⟩
    rw [List.mem_singleton.mp member]
    exact soundDoc_ack ((sound_ascii "connected agents: " (by decide)).append (sound_of_printable (printable_digits _)))
  | chat is =>
    have sender := sound.get "from" (by simp [heldStrings_chat is])
      (show Sound (if client.declared_host = [] then client.peer_label else client.declared_host) by
        split
        · exact label
        · exact declared)
    have text := sound.get "text" (by simp [heldStrings_chat is]) emptySound
    refine ⟨held, fun output member => ?_⟩
    rw [List.mem_singleton.mp member]
    exact soundDoc_chat sender text (sound_of_printable (printable_iso_timestamp _))
  | @refuse message notMetrics texts =>
    have printable : ∀ text ∈ [ascii "unsupported message", ascii "unknown command",
        ascii "expected /alert CPU>80% or /alert MEMORY>70%"], Printable text := by decide
    refine ⟨held, fun output member => ?_⟩
    rw [List.mem_singleton.mp member]
    exact soundDoc_error (sound_of_printable (printable message texts))

end Step

/-- In a run that receives only sound lines the server stays sound, and so does
everything it puts out. -/
theorem ServerRun.sound {platform : Platform} {server : MonitorServer} {log : List Entry}
    (run : ServerRun platform server log)
    (lines : ∀ h, .handled h ∈ log → ∀ client, h.before.clients_[h.index]? = some client →
      LineSound platform client h.line) :
    server.Sound ∧ ∀ h, .handled h ∈ log → ∀ output ∈ h.outputs, SoundDoc output.event.toDoc := by
  revert lines
  refine run.invariant (fun server log => (∀ h, .handled h ∈ log → ∀ client,
    h.before.clients_[h.index]? = some client → LineSound platform client h.line) →
    server.Sound ∧ ∀ h, .handled h ∈ log → ∀ output ∈ h.outputs, SoundDoc output.event.toDoc)
    (fun _ => ⟨⟨fun _ member => (nomatch member), fun _ member => (nomatch member), fun _ member => (nomatch member)⟩,
      by simp⟩) ?_
  intro server after log entries _ ih one lines
  obtain ⟨held, earlier⟩ := ih fun h member => lines h (List.mem_append_left _ member)
  cases one with
  | @accept fd peer _ =>
    refine ⟨⟨fun client member => ?_, held.metrics, held.rules⟩, fun h member => ?_⟩
    · rcases List.mem_append.mp member with old | new
      · exact held.clients client old
      · rw [List.mem_singleton.mp new]
        exact ⟨sound_of_printable (printable_endpoint_label peer), sound_of_printable (s := []) (by decide)⟩
    · exact earlier h (by simpa using member)
  | @buffer index pending =>
    refine ⟨⟨fun client member => ?_, held.metrics, held.rules⟩, fun h member => earlier h (by simpa using member)⟩
    obtain ⟨i, atI⟩ := List.getElem?_of_mem member
    simp only [MonitorServer.modifyClient, List.getElem?_modify] at atI
    split at atI <;>
    · obtain ⟨previous, atPrevious, rfl⟩ := Option.map_eq_some_iff.mp atI
      exact held.clients previous (List.mem_of_getElem? atPrevious)
  | @handle _ clock index line outputs handled =>
    obtain ⟨client, atIndex, handling⟩ := MonitorServer.handle_line_cases handled
    obtain ⟨afterHeld, put⟩ := handling.sound atIndex held
      (lines ⟨server, clock, index, line, outputs, after⟩ (by simp) client atIndex)
    refine ⟨afterHeld, fun h member => ?_⟩
    rcases List.mem_append.mp member with old | new
    · exact earlier h old
    · cases List.mem_singleton.mp new
      exact put
  | disconnect _ =>
    refine ⟨⟨fun client member => held.clients client (List.mem_of_mem_eraseIdx member), held.metrics, held.rules⟩,
      fun h member => earlier h (by simpa using member)⟩

/-- An event line decodes to the value of its event exactly when its strings
hold no raw control character; and as long as clients send text whose kept
strings hold none, every line put out in a run is one line of text that does. -/
theorem event_lines_decode_iff_clean (platform : Platform) :
    (∀ event : ServerEvent, loads event.to_json = some event.toObject ↔ ∀ s ∈ strings event.toDoc, Clean s) ∧
    ∀ server log, ServerRun platform server log →
      (∀ h, .handled h ∈ log → ∀ client, h.before.clients_[h.index]? = some client →
        LineSound platform client h.line) →
      ∀ h, .handled h ∈ log → ∀ output ∈ h.outputs, Utf8.Valid output.event.to_json ∧
        newline ∉ output.event.to_json ∧ loads output.event.to_json = some output.event.toObject := by
  have decodes (event : ServerEvent) :
      loads event.to_json = some event.toObject ↔ ∀ s ∈ strings event.toDoc, Clean s := by
    rw [event.loads_to_json]
    split
    · rename_i clean
      exact ⟨fun _ => clean, fun _ => rfl⟩
    · rename_i unclean
      exact ⟨fun decoded => (nomatch decoded), fun clean => absurd clean unclean⟩
  refine ⟨decodes, fun server log run lines h member output inOutputs => ?_⟩
  have sound := (run.sound lines).2 h member output inOutputs
  exact ⟨ServerEvent.valid_to_json fun s inDoc => (sound s inDoc).2, output.event.newline_not_mem,
    (decodes output.event).mpr fun s inDoc => (sound s inDoc).1⟩

/-- A host name with the character U+0001 makes the snapshot that a dashboard
gets on registration undecodable. -/
theorem control_character_poisons_snapshot :
    ¬ ∀ platform server log, ServerRun platform server log → (∀ h, .handled h ∈ log → Utf8.Valid h.line) →
      ∀ h, .handled h ∈ log → ∀ output ∈ h.outputs, loads output.event.to_json = some output.event.toObject := by
  intro decodable
  let platform : Platform := ⟨fun _ => false⟩
  let clock : ℕ → Tm := fun _ => ⟨2024, 1, 2, 3, 4, 5⟩
  let requests : List Request :=
    [.accept 4 ⟨(127, 0, 0, 1), 50000⟩,
     .line clock 0 (ascii "\x7b\"type\":\"register\",\"role\":\"agent\"\x7d"),
     .line clock 0 (ascii "\x7b\"type\":\"metrics\",\"host\":\"a\x01\",\"cpu_percent\":1.00\x7d"),
     .accept 5 ⟨(127, 0, 0, 1), 50001⟩,
     .line clock 1 (ascii "\x7b\"type\":\"register\",\"role\":\"dashboard\"\x7d")]
  have served : MonitorServer.servesTo platform requests (fun _ log =>
      (log.filterMap Entry.handled?).all (fun h => h.line.all fun ch => ch.toNat < 128) &&
      (log.filterMap Entry.handled?).any fun h => h.outputs.any fun output =>
        (loads output.event.to_json).isNone) = true := by decide +kernel
  obtain ⟨server, log, run, tested⟩ := MonitorServer.run_of_servesTo served
  simp only [Bool.and_eq_true, List.all_eq_true, List.any_eq_true, decide_eq_true_eq, Option.isNone_iff_eq_none]
    at tested
  obtain ⟨texts, h, inLog, output, inOutputs, refused⟩ := tested
  have valid : ∀ h, .handled h ∈ log → Utf8.Valid h.line := fun h member =>
    Utf8.valid_ascii (texts h (List.mem_filterMap.mpr ⟨_, member, rfl⟩))
  have decoded := decodable platform server log run valid h (mem_of_handled? inLog) output inOutputs
  rw [refused] at decoded
  cases decoded

end SysNetMon
