import SysNetMon.NumeralRange
import SysNetMon.Ownership
import SysNetMon.Senders
import SysNetMon.WireLines

/-!
The programs that connect to the server, agents and dashboards: the lines that
they write, and what each of these lines is to the server.
-/

namespace SysNetMon
open Bytes Decimal KeySearch PyStr

/-- What `_run` sends first. -/
def dashboardRegister : List (String × PyStr) :=
  [("type", pyLiteral "register"), ("role", pyLiteral "dashboard"), ("host", pyLiteral "flask-dashboard")]

/-- One end of a connection with what it sends: an agent under its name with the
metrics that it collects, or a dashboard with what its users type. -/
inductive Participant where
  | agent (agent_name : Bytes) (metrics : List MetricSnapshot)
  | dashboard (messages : List UserMessage)

namespace Participant

def lines : Participant → List Bytes
  | agent agent_name metrics => register_message agent_name :: metrics.map metrics_payload
  | dashboard messages => dumps dashboardRegister :: messages.map fun message => dumps message.fields

def metrics : Participant → List MetricSnapshot
  | agent _ metrics => metrics
  | dashboard _ => []

def messages : Participant → List UserMessage
  | agent _ _ => []
  | dashboard messages => messages

end Participant

/-- What the server makes of a metric that an agent sends. -/
def relayed (metric : MetricSnapshot) : MetricSnapshot where
  host := readBack metric.host
  timestamp := readBack metric.timestamp
  cpu_percent := printed metric.cpu_percent
  memory_percent := printed metric.memory_percent
  disk_percent := printed metric.disk_percent
  network_rx_kbps := printed metric.network_rx_kbps
  network_tx_kbps := printed metric.network_tx_kbps
  memory_used_mb := metric.memory_used_mb
  memory_total_mb := metric.memory_total_mb
  disk_used_mb := metric.disk_used_mb
  disk_total_mb := metric.disk_total_mb

theorem read_metric_payload (platform : Platform) (now : Tm) (client : ClientConnection) (metric : MetricSnapshot) :
    read_metric platform now client (metrics_payload metric) = .ok (relayed metric) := by
  unfold read_metric
  rw [payload_string (s := metric.host) (by simp [payloadFields]),
    payload_string (s := metric.timestamp) (by simp [payloadFields]),
    payload_number platform metric.cpu_percent (by simp [payloadFields]),
    payload_number platform metric.memory_percent (by simp [payloadFields]),
    payload_number platform metric.disk_percent (by simp [payloadFields]),
    payload_number platform metric.network_rx_kbps (by simp [payloadFields]),
    payload_number platform metric.network_tx_kbps (by simp [payloadFields]),
    payload_integer (i := metric.memory_used_mb) (by simp [payloadFields]),
    payload_integer (i := metric.memory_total_mb) (by simp [payloadFields]),
    payload_integer (i := metric.disk_used_mb) (by simp [payloadFields]),
    payload_integer (i := metric.disk_total_mb) (by simp [payloadFields])]
  rfl

section Relay

theorem printed_val (value : Double) : (printed value).val = rounded value := rfl

theorem cents_printed (value : Double) : cents (printed value) = cents value := by
  have scaled : |(printed value).val| * 100 = (cents value : ℚ) := by
    rw [printed_val, abs_rounded, div_mul_cancel₀ _ (by norm_num)]
  have close := abs_roundHalfEven_sub_le (x := (cents value : ℚ)) (Nat.cast_nonneg _)
  rw [cents, scaled]
  have near : |((roundHalfEven (cents value : ℚ) : ℤ) - (cents value : ℤ) : ℚ)| < 1 := lt_of_le_of_lt close (by norm_num)
  have same : |(roundHalfEven (cents value : ℚ) : ℤ) - (cents value : ℤ)| < 1 := by exact_mod_cast near
  rw [Int.abs_lt_one_iff, sub_eq_zero] at same
  exact_mod_cast same

/-- What was printed and read prints as before. -/
theorem format_double_printed {value : Double} (nonneg : 0 ≤ value.val) :
    format_double (printed value) = format_double value := by
  have positive : ¬ (printed value).val < 0 := by
    rw [printed_val, rounded, if_neg (not_lt.mpr nonneg), one_mul, not_lt]
    exact div_nonneg (Nat.cast_nonneg _) (by norm_num)
  rw [format_double, format_double, cents_printed, decide_eq_false positive, decide_eq_false (not_lt.mpr nonneg)]

/-- A metric whose texts need no escape, and of which no rate and no share is negative. -/
structure MetricSnapshot.Clean (metric : MetricSnapshot) : Prop where
  host : Plain metric.host
  timestamp : Plain metric.timestamp
  rates : ∀ value ∈ [metric.cpu_percent, metric.memory_percent, metric.disk_percent, metric.network_rx_kbps,
    metric.network_tx_kbps], 0 ≤ value.val

/-- The server writes such a metric as the agent did. -/
theorem metric_data_relayed {metric : MetricSnapshot} (clean : metric.Clean) :
    metric_data_to_json (relayed metric) = metric_data_to_json metric := by
  have rates := clean.rates
  simp only [List.forall_mem_cons] at rates
  obtain ⟨cpu, memory, disk, rx, tx, -⟩ := rates
  have host : readBack metric.host = metric.host := (readBack_eq_iff _).mpr clean.host
  have timestamp : readBack metric.timestamp = metric.timestamp := (readBack_eq_iff _).mpr clean.timestamp
  unfold metric_data_to_json relayed
  dsimp only
  rw [host, timestamp, format_double_printed cpu, format_double_printed memory, format_double_printed disk,
    format_double_printed rx, format_double_printed tx]

/-- The object without its first brace. -/
theorem metric_data_opened (metric : MetricSnapshot) :
    metric_data_to_json metric = openBrace :: (metric_data_to_json metric).drop 1 := by
  unfold metric_data_to_json
  simp only [List.append_assoc, List.cons_append, List.drop_succ_cons, List.drop_zero]

end Relay

section Lines
variable {platform : Platform}

theorem lineType_register (agent_name : Bytes) : lineType (register_message agent_name) = ascii "register" := by
  have member : (ascii "type", quote :: (ascii "register" ++ [quote])) ∈ registerFields agent_name := List.mem_cons_self
  rw [lineType, register_message_eq, json_get_string_objectText (separate_registerFields agent_name) no_gap member]
  decide

theorem lineType_payload (metric : MetricSnapshot) : lineType (metrics_payload metric) = ascii "metrics" := by
  rw [lineType, payload_type]
  rfl

theorem json_get_string_dashboardRegister {name : String} {s : PyStr} (member : (name, s) ∈ dashboardRegister) :
    json_get_string (dumps dashboardRegister) (ascii name) = some (wireText s) := by
  have names : dashboardRegister.map (fun f => ascii f.1) = [ascii "type", ascii "role", ascii "host"] := rfl
  refine json_get_string_dumps ?_ ?_ member
  · rw [names]
    decide
  · rw [names]
    decide

theorem lineType_dashboardRegister : lineType (dumps dashboardRegister) = ascii "register" := by
  rw [lineType, json_get_string_dashboardRegister List.mem_cons_self]
  decide

theorem lineType_command (text : PyStr) : lineType (dumps (send_command text)) = ascii "command" := by
  rw [lineType, json_get_string_send_command List.mem_cons_self]
  decide

theorem lineText_command (text : PyStr) : lineText (dumps (send_command text)) = wireText text := by
  rw [lineText, json_get_string_send_command (s := text) (by simp [send_command])]
  rfl

theorem lineType_chat (sender text : PyStr) : lineType (dumps (send_chat sender text)) = ascii "chat" := by
  rw [lineType, json_get_string_send_chat List.mem_cons_self]
  decide

theorem chat_send_chat (server : MonitorServer) (clock : ℕ → Tm) (client : ClientConnection) (sender text : PyStr) :
    server.chat clock client (dumps (send_chat sender text)) = server.broadcast_to_dashboards
      (.chat ⟨wireText sender, wireText text, iso_timestamp (clock 0)⟩) := by
  rw [MonitorServer.chat, json_get_string_send_chat (s := sender) (by simp [send_chat]),
    json_get_string_send_chat (s := text) (by simp [send_chat])]
  rfl

/-- The agent's register is acknowledged, and nothing is sent with it. -/
theorem MonitorServer.register_agent (server : MonitorServer) (clock : ℕ → Tm) (index : ℕ) (client : ClientConnection)
    (agent_name : Bytes) :
    (server.register clock index client (register_message agent_name)).2 =
        [.send_line client.fd (.ack (ascii "registered as agent"))] ∧
      ∃ declared_host, (server.register clock index client (register_message agent_name)).1 =
        server.modifyClient index fun client => { client with declared_host, role := .Agent } := by
  have member : (ascii "role", quote :: (ascii "agent" ++ [quote])) ∈ registerFields agent_name :=
    List.mem_cons_of_mem _ List.mem_cons_self
  have role : lower_copy ((json_get_string (register_message agent_name) (ascii "role")).getD []) = ascii "agent" := by
    rw [register_message_eq, json_get_string_objectText (separate_registerFields agent_name) no_gap member]
    decide
  have text : ascii "registered as " ++ ascii "agent" = ascii "registered as agent" := by decide
  have registered : registeredRole (ascii "agent") client.role = .Agent := if_pos rfl
  rw [register]
  dsimp only
  rw [role, registered, text]
  exact ⟨rfl, _, rfl⟩

section Handle
variable {server : MonitorServer} {clock : ℕ → Tm} {index : ℕ} {client : ClientConnection}

theorem MonitorServer.handle_line_register_message (atIndex : server.clients_[index]? = some client)
    (agent_name : Bytes) :
    server.handle_line platform clock index (register_message agent_name) =
      .ok (server.register clock index client (register_message agent_name)) := by
  rw [handle_line, atIndex]
  exact if_pos (lineType_register agent_name)

theorem MonitorServer.handle_line_payload (atIndex : server.clients_[index]? = some client) (role : client.role = .Agent)
    (metric : MetricSnapshot) :
    server.handle_line platform clock index (metrics_payload metric) =
      .ok (server.store (fun i => clock (i + 1)) (relayed metric)) := by
  have type : (json_get_string (metrics_payload metric) (ascii "type")).getD [] = ascii "metrics" := lineType_payload metric
  rw [handle_line, atIndex]
  dsimp only
  rw [type, if_neg (by decide), if_pos ⟨rfl, role⟩, read_metric_payload]
  rfl

/-- What an agent collected reaches the dashboards byte for byte: the fields of its
line make up the data of the first event that the line gives rise to. -/
theorem metric_relayed_verbatim (atIndex : server.clients_[index]? = some client) (role : client.role = .Agent)
    {metric : MetricSnapshot} (clean : metric.Clean) :
    ∃ fields after event alerts,
      metrics_payload metric = ascii "\x7b\"type\":\"metrics\"," ++ fields ∧
      server.handle_line platform clock index (metrics_payload metric) =
        .ok (after, server.broadcast_to_dashboards event :: alerts) ∧
      event.to_json = ascii "\x7b\"type\":\"metric\",\"data\":\x7b" ++ fields ++ ascii "\x7d" := by
  have text : (ServerEvent.metric (relayed metric)).to_json =
      ascii "\x7b\"type\":\"metric\",\"data\":\x7b" ++ (metric_data_to_json metric).drop 1 ++ ascii "\x7d" := by
    have start : ascii "\x7b\"type\":\"metric\",\"data\":\x7b" =
        [openBrace] ++ named "type" (literal "metric") ++ [comma] ++ named "data" [openBrace] := by decide +kernel
    have finish : ascii "\x7d" = [closeBrace] := by decide
    rw [ServerEvent.to_json, metric_event_to_json, metric_data_relayed clean, start, finish, metric_data_opened metric]
    simp only [named, List.append_assoc, List.cons_append, List.nil_append, List.drop_succ_cons, List.drop_zero]
  exact ⟨_, _, _, _, rfl, MonitorServer.handle_line_payload atIndex role metric, text⟩

end Handle

/-- The first metric of an agent under a plain name, with a load and rates that are rounded. -/
theorem metric_relayed_verbatim_first : ∃ (platform : Platform) (server : MonitorServer) (clock : ℕ → Tm)
    (metric : MetricSnapshot) (fields : Bytes) (after : MonitorServer) (event : ServerEvent) (alerts : List Output),
    metric.host = ascii "web" ∧ metric.cpu_percent.val = 200 / 3 ∧
      metrics_payload metric = ascii "\x7b\"type\":\"metrics\"," ++ fields ∧
      server.handle_line platform clock 0 (metrics_payload metric) =
        .ok (after, server.broadcast_to_dashboards event :: alerts) ∧
      event.to_json = ascii "\x7b\"type\":\"metric\",\"data\":\x7b" ++ fields ++ ascii "\x7d" := by
  let platform : Platform := ⟨fun _ => false⟩
  let clock : ℕ → Tm := fun _ => ⟨2024, 1, 2, 3, 4, 5⟩
  let server : MonitorServer := { clients_ := [{ fd := 4, role := .Agent, peer_label := [] }] }
  let metric : MetricSnapshot :=
    { host := ascii "web"
      timestamp := iso_timestamp (clock 0)
      cpu_percent := ⟨200 / 3, by decide +kernel⟩
      network_rx_kbps := ⟨1 / 7, by decide +kernel⟩
      network_tx_kbps := ⟨99999 / 1000, by decide +kernel⟩
      memory_used_mb := 512
      memory_total_mb := 2048 }
  have clean : metric.Clean := by
    refine ⟨by decide +kernel, by decide +kernel, fun value member => ?_⟩
    have signs : ∀ value ∈ [metric.cpu_percent, metric.memory_percent, metric.disk_percent, metric.network_rx_kbps,
        metric.network_tx_kbps], 0 ≤ value.val := by
      simp only [List.forall_mem_cons]
      decide +kernel
    exact signs value member
  obtain ⟨fields, after, event, alerts, line, handled, text⟩ :=
    @metric_relayed_verbatim platform server clock 0 _ rfl rfl metric clean
  exact ⟨platform, server, clock, metric, fields, after, event, alerts, rfl, rfl, line, handled, text⟩

end Lines

/-- The lines that are sent, each with what the server goes by. -/
inductive Spoken (participant : Participant) : Bytes → Prop
  | register {line} : lineType line = ascii "register" → Spoken participant line
  | metric {metric} : metric ∈ participant.metrics → Spoken participant (metrics_payload metric)
  | command {text} : .command text ∈ participant.messages → Spoken participant (dumps (send_command text))
  | chat {sender text} : .chat sender text ∈ participant.messages → Spoken participant (dumps (send_chat sender text))

section Spoken
variable {platform : Platform} {participant : Participant} {line : Bytes}

theorem Participant.spoken (member : line ∈ participant.lines) : Spoken participant line := by
  cases participant with
  | agent agent_name metrics =>
    rcases List.mem_cons.mp member with rfl | later
    · exact .register (lineType_register agent_name)
    · obtain ⟨metric, collected, rfl⟩ := List.mem_map.mp later
      exact .metric collected
  | dashboard messages =>
    rcases List.mem_cons.mp member with rfl | later
    · exact .register lineType_dashboardRegister
    · obtain ⟨message, typed, rfl⟩ := List.mem_map.mp later
      cases message with
      | command text => exact .command typed
      | chat sender text => exact .chat typed

/-- Whatever is sent arrives as it was written. -/
theorem Participant.wireLines (participant : Participant) : ∀ line ∈ participant.lines, WireLine line := by
  cases participant with
  | agent agent_name metrics =>
    refine List.forall_mem_cons.mpr ⟨wireLine_register agent_name, fun line member => ?_⟩
    obtain ⟨metric, -, rfl⟩ := List.mem_map.mp member
    exact wireLine_payload metric
  | dashboard messages =>
    refine List.forall_mem_cons.mpr ⟨wireLine_dumps ?_, fun line member => ?_⟩
    · simp only [dashboardRegister, List.forall_mem_cons]
      exact ⟨by decide, by decide, by decide, List.forall_mem_nil _⟩
    · obtain ⟨message, -, rfl⟩ := List.mem_map.mp member
      exact wireLine_dumps fun f inFields => (message.names f inFields).2

/-- The threshold of what is typed is within range, if it is an alert command. -/
def CommandInRange (platform : Platform) (text : PyStr) : Prop :=
  startsWith (ascii "/alert") (lower_copy (trim (wireText text))) = true → ThresholdInRange platform (wireText text)

theorem Spoken.type_cases (spoken : Spoken participant line) :
    lineType line = ascii "register" ∨
      (lineType line = ascii "metrics" ∧ ∃ metric ∈ participant.metrics, line = metrics_payload metric) ∨
      (lineType line = ascii "command" ∧ ∃ text, .command text ∈ participant.messages ∧ line = dumps (send_command text)) ∨
      (lineType line = ascii "chat" ∧
        ∃ sender text, .chat sender text ∈ participant.messages ∧ line = dumps (send_chat sender text)) := by
  cases spoken with
  | register is => exact Or.inl is
  | metric collected => exact Or.inr (Or.inl ⟨lineType_payload _, _, collected, rfl⟩)
  | command typed => exact Or.inr (Or.inr (Or.inl ⟨lineType_command _, _, typed, rfl⟩))
  | chat typed => exact Or.inr (Or.inr (Or.inr ⟨lineType_chat _ _, _, _, typed, rfl⟩))

/-- The types that the server tells apart. -/
theorem types_distinct : [ascii "register", ascii "metrics", ascii "command", ascii "chat"].Nodup := by decide

/-- Metrics lines, command lines and chat lines are sent for what was collected and typed. -/
theorem Spoken.of_metrics (spoken : Spoken participant line) (is : lineType line = ascii "metrics") :
    ∃ metric ∈ participant.metrics, line = metrics_payload metric := by
  have distinct := types_distinct
  simp only [List.nodup_cons, List.mem_cons, not_or] at distinct
  rcases spoken.type_cases with other | ⟨-, found⟩ | ⟨other, -⟩ | ⟨other, -⟩
  · exact absurd (other.symm.trans is) distinct.1.1
  · exact found
  · exact absurd (is.symm.trans other) distinct.2.1.1
  · exact absurd (is.symm.trans other) distinct.2.1.2.1

theorem Spoken.of_command (spoken : Spoken participant line) (is : lineType line = ascii "command") :
    ∃ text, .command text ∈ participant.messages ∧ line = dumps (send_command text) := by
  have distinct := types_distinct
  simp only [List.nodup_cons, List.mem_cons, not_or] at distinct
  rcases spoken.type_cases with other | ⟨other, -⟩ | ⟨-, found⟩ | ⟨other, -⟩
  · exact absurd (other.symm.trans is) distinct.1.2.1
  · exact absurd (other.symm.trans is) distinct.2.1.1
  · exact found
  · exact absurd (is.symm.trans other) distinct.2.2.1.1

theorem Spoken.of_chat (spoken : Spoken participant line) (is : lineType line = ascii "chat") :
    ∃ sender text, .chat sender text ∈ participant.messages ∧ line = dumps (send_chat sender text) := by
  have distinct := types_distinct
  simp only [List.nodup_cons, List.mem_cons, not_or] at distinct
  rcases spoken.type_cases with other | ⟨other, -⟩ | ⟨other, -⟩ | ⟨-, found⟩
  · exact absurd (other.symm.trans is) distinct.1.2.2.1
  · exact absurd (other.symm.trans is) distinct.2.1.2.1
  · exact absurd (other.symm.trans is) distinct.2.2.1.1
  · exact found

/-- Of the lines that are sent only an alert command can be out of range. -/
theorem Spoken.lineInRange (spoken : Spoken participant line) (client : ClientConnection)
    (commands : ∀ text, .command text ∈ participant.messages → line = dumps (send_command text) →
      CommandInRange platform text) :
    LineInRange platform client line := by
  constructor
  · rintro ⟨is, -⟩
    obtain ⟨metric, -, rfl⟩ := spoken.of_metrics is
    exact read_metric_ok_iff.mp ⟨_, read_metric_payload platform ⟨0, 0, 0, 0, 0, 0⟩ client metric⟩
  · intro is alert
    obtain ⟨text, typed, rfl⟩ := spoken.of_command is
    rw [lineText_command] at alert ⊢
    exact commands text typed rfl alert

/-- A command line is within range where its threshold is. -/
theorem commandInRange_of_line {client : ClientConnection} {text : PyStr}
    (range : LineInRange platform client (dumps (send_command text))) : CommandInRange platform text := by
  have command := range.2 (lineType_command text)
  rwa [lineText_command] at command

end Spoken

end SysNetMon
