import SysNetMon.AlertCommand
import SysNetMon.Extraction
import SysNetMon.Run

/-!
The messages of an agent, and what the server extracts from them.
-/

namespace SysNetMon
open Bytes Decimal KeySearch

/-- The message that `connect_to_server` sends. -/
def register_message (agent_name : Bytes) : Bytes :=
  ascii "\x7b\"type\":\"register\",\"role\":\"agent\",\"host\":\"" ++ escape_json agent_name ++ ascii "\"\x7d"

def metrics_payload (metric : MetricSnapshot) : Bytes :=
  ascii "\x7b\"type\":\"metrics\"," ++ (metric_data_to_json metric).drop 1

def registerFields (agent_name : Bytes) : List (Bytes × Bytes) :=
  [(ascii "type", literal "register"), (ascii "role", literal "agent"), (ascii "host", quoted agent_name)]

def payloadFields (metric : MetricSnapshot) : List (Bytes × Bytes) :=
  [(ascii "type", literal "metrics"), (ascii "host", quoted metric.host), (ascii "timestamp", quoted metric.timestamp),
    (ascii "cpu_percent", format_double metric.cpu_percent),
    (ascii "memory_percent", format_double metric.memory_percent),
    (ascii "disk_percent", format_double metric.disk_percent),
    (ascii "network_rx_kbps", format_double metric.network_rx_kbps),
    (ascii "network_tx_kbps", format_double metric.network_tx_kbps),
    (ascii "memory_used_mb", printInt metric.memory_used_mb.toInt),
    (ascii "memory_total_mb", printInt metric.memory_total_mb.toInt),
    (ascii "disk_used_mb", printInt metric.disk_used_mb.toInt),
    (ascii "disk_total_mb", printInt metric.disk_total_mb.toInt)]

theorem register_message_eq (agent_name : Bytes) :
    register_message agent_name = objectText [] (registerFields agent_name) := by
  have start : ascii "\x7b\"type\":\"register\",\"role\":\"agent\",\"host\":\"" =
      123 :: (field [] (ascii "type", literal "register") ++ comma :: (field [] (ascii "role", literal "agent") ++
        comma :: quote :: (ascii "host" ++ [quote, colon, quote]))) := by decide +kernel
  have finish : ascii "\"\x7d" = [quote, 125] := by decide
  rw [register_message, start, finish]
  simp [registerFields, objectText, closing, field, quoted]

theorem metrics_payload_eq (metric : MetricSnapshot) :
    metrics_payload metric = objectText [] (payloadFields metric) := by
  have start : ascii "\x7b\"type\":\"metrics\"," = 123 :: (field [] (ascii "type", literal "metrics") ++ [comma]) := by
    decide +kernel
  unfold metrics_payload metric_data_to_json
  rw [start]
  simp [payloadFields, objectText, closing, field, named, closeBrace]

theorem separate_registerFields (agent_name : Bytes) : Separate (registerFields agent_name) where
  word := by
    change ∀ name ∈ [ascii "type", ascii "role", ascii "host"], Word name
    decide
  token := by
    simp only [registerFields, List.forall_mem_cons]
    exact ⟨token_literal (by decide), token_literal (by decide), token_quoted _, List.forall_mem_nil _⟩
  distinct := by
    change [ascii "type", ascii "role", ascii "host"].Nodup
    decide

theorem separate_payloadFields (metric : MetricSnapshot) : Separate (payloadFields metric) where
  word := by
    change ∀ name ∈ [ascii "type", ascii "host", ascii "timestamp", ascii "cpu_percent", ascii "memory_percent",
      ascii "disk_percent", ascii "network_rx_kbps", ascii "network_tx_kbps", ascii "memory_used_mb",
      ascii "memory_total_mb", ascii "disk_used_mb", ascii "disk_total_mb"], Word name
    decide +kernel
  token := by
    simp only [payloadFields, List.forall_mem_cons]
    exact ⟨token_literal (by decide), token_quoted _, token_quoted _, token_format_double _, token_format_double _,
      token_format_double _, token_format_double _, token_format_double _, token_printInt _, token_printInt _,
      token_printInt _, token_printInt _, List.forall_mem_nil _⟩
  distinct := by
    change [ascii "type", ascii "host", ascii "timestamp", ascii "cpu_percent", ascii "memory_percent",
      ascii "disk_percent", ascii "network_rx_kbps", ascii "network_tx_kbps", ascii "memory_used_mb",
      ascii "memory_total_mb", ascii "disk_used_mb", ascii "disk_total_mb"].Nodup
    decide +kernel

/-- The agent's messages are compact. -/
theorem no_gap : ∀ ch ∈ ([] : Bytes), isspace ch = true := List.forall_mem_nil _

/-- The part of an escaped string that the server reads. -/
def readBack (s : Bytes) : Bytes := (escape_json s).takeWhile fun ch => ch != quote

/-- A string that `escape_json` leaves as it is. -/
def Plain (s : Bytes) : Prop := ∀ ch ∈ s, ch ∉ [backslash, quote, newline, 13, 9]

instance (s : Bytes) : Decidable (Plain s) := List.decidableBAll _ s

/-- The server reads back exactly the plain strings as they were. -/
theorem readBack_eq_iff (s : Bytes) : readBack s = s ↔ Plain s := by
  have same (ch : UInt8) (plain : ch ∉ [backslash, quote, newline, 13, 9]) : escape_char ch = [ch] := by
    rcases escape_char_cases ch with ⟨-, -, -, -, special⟩ | ⟨shape, -⟩
    · exact absurd special plain
    · exact shape
  have longer (ch : UInt8) (special : ¬ ch ∉ [backslash, quote, newline, 13, 9]) :
      [ch].length < (escape_char ch).length := by
    rcases escape_char_cases ch with ⟨e, shape, -⟩ | ⟨-, plain⟩
    · rw [shape]
      exact Nat.lt_succ_self 1
    · exact absurd plain special
  have mirrors (ch : UInt8) (member : quote ∈ escape_char ch) : quote ∈ [ch] := by
    rcases escape_char_cases ch with ⟨e, shape, letter, -, special⟩ | ⟨shape, -⟩
    · rw [shape] at member
      simp only [List.mem_cons, List.not_mem_nil, or_false] at member special
      rcases member with is | rfl
      · exact absurd is (by decide)
      · rcases special with rfl | rfl | rfl | rfl | rfl <;> first | decide | exact absurd letter (by decide)
    · rwa [shape] at member
  have free (ch : UInt8) (plain : ch ∉ [backslash, quote, newline, 13, 9]) : quote ∉ [ch] := by
    rw [List.mem_singleton]
    rintro rfl
    exact plain (by decide)
  have read := takeWhile_flatMap_eq_iff same longer mirrors free s
  rwa [List.flatMap_singleton'] at read

theorem register_host (agent_name : Bytes) :
    json_get_string (register_message agent_name) (ascii "host") = some (readBack agent_name) := by
  rw [register_message_eq]
  exact json_get_string_objectText (separate_registerFields agent_name) no_gap (by simp [registerFields, quoted])

theorem payload_string {metric : MetricSnapshot} {key s : Bytes} (member : (key, quoted s) ∈ payloadFields metric) :
    json_get_string (metrics_payload metric) key = some (readBack s) := by
  rw [metrics_payload_eq]
  exact json_get_string_objectText (separate_payloadFields metric) no_gap member

theorem payload_integer {metric : MetricSnapshot} {key : Bytes} {i : Int64}
    (member : (key, printInt i.toInt) ∈ payloadFields metric) :
    json_get_integer (metrics_payload metric) key = .ok (some i) := by
  rw [metrics_payload_eq]
  exact json_get_integer_objectText (separate_payloadFields metric) no_gap member

theorem payload_number (platform : Platform) {metric : MetricSnapshot} {key : Bytes} (value : Double)
    (member : (key, format_double value) ∈ payloadFields metric) :
    json_get_number platform (metrics_payload metric) key = .ok (some (printed value)) := by
  rw [metrics_payload_eq]
  exact json_get_number_objectText platform (separate_payloadFields metric) no_gap member

theorem payload_type (metric : MetricSnapshot) :
    json_get_string (metrics_payload metric) (ascii "type") = some (ascii "metrics") := by
  have member : (ascii "type", quote :: (ascii "metrics" ++ [quote])) ∈ payloadFields metric := List.mem_cons_self
  rw [metrics_payload_eq, json_get_string_objectText (separate_payloadFields metric) no_gap member]
  decide

/-- What the extractors make of the fields of a line other than its host and timestamp. -/
def decodedFields (platform : Platform) (line : Bytes) :
    Option Bytes × List (Except Abort (Option Double)) × List (Except Abort (Option Int64)) :=
  (json_get_string line (ascii "type"), numberKeys.map (json_get_number platform line),
    integerKeys.map (json_get_integer line))

/-- The server reads the type, the five printed values and the four whole numbers
of a payload off it, whatever its host and timestamp hold. -/
theorem payload_fields_isolated (platform : Platform) (metric : MetricSnapshot) :
    decodedFields platform (metrics_payload metric) =
      (some (ascii "metrics"),
        [.ok (some (printed metric.cpu_percent)), .ok (some (printed metric.memory_percent)),
          .ok (some (printed metric.disk_percent)), .ok (some (printed metric.network_rx_kbps)),
          .ok (some (printed metric.network_tx_kbps))],
        [.ok (some metric.memory_used_mb), .ok (some metric.memory_total_mb), .ok (some metric.disk_used_mb),
          .ok (some metric.disk_total_mb)]) ∧
    (∀ value, (printed value).val = rounded value ∧ |rounded value - value.val| ≤ 1 / 200) ∧
    ∀ host timestamp, decodedFields platform (metrics_payload { metric with host, timestamp }) =
      decodedFields platform (metrics_payload metric) := by
  have decoded (metric : MetricSnapshot) : decodedFields platform (metrics_payload metric) =
      (some (ascii "metrics"),
        [.ok (some (printed metric.cpu_percent)), .ok (some (printed metric.memory_percent)),
          .ok (some (printed metric.disk_percent)), .ok (some (printed metric.network_rx_kbps)),
          .ok (some (printed metric.network_tx_kbps))],
        [.ok (some metric.memory_used_mb), .ok (some metric.memory_total_mb), .ok (some metric.disk_used_mb),
          .ok (some metric.disk_total_mb)]) := by
    simp only [decodedFields, numberKeys, integerKeys, List.map_cons, List.map_nil, payload_type]
    rw [payload_number platform metric.cpu_percent (by simp [payloadFields]),
      payload_number platform metric.memory_percent (by simp [payloadFields]),
      payload_number platform metric.disk_percent (by simp [payloadFields]),
      payload_number platform metric.network_rx_kbps (by simp [payloadFields]),
      payload_number platform metric.network_tx_kbps (by simp [payloadFields]),
      payload_integer (i := metric.memory_used_mb) (by simp [payloadFields]),
      payload_integer (i := metric.memory_total_mb) (by simp [payloadFields]),
      payload_integer (i := metric.disk_used_mb) (by simp [payloadFields]),
      payload_integer (i := metric.disk_total_mb) (by simp [payloadFields])]
  exact ⟨decoded metric, fun value => ⟨rfl, abs_rounded_sub_le value⟩, fun host timestamp =>
    (decoded { metric with host, timestamp }).trans (decoded metric).symm⟩

/-- The server stores a payload under the host that it reads off it. -/
theorem read_metric_payload_host {platform : Platform} {now : Tm} {client : ClientConnection}
    {metric stored : MetricSnapshot}
    (read : read_metric platform now client (metrics_payload metric) = .ok stored) :
    stored.host = readBack metric.host := by
  rw [(read_metric_strings read).1, payload_string (s := metric.host) (by simp [payloadFields]), Option.getD_some]

/-- The server reads an agent's name off its register message and its payloads
as it was exactly when the name is plain; so agents with different plain names
have different entries in the metrics and different alert keys. -/
theorem agent_name_read_back_iff_plain (agent_name : Bytes) :
    (json_get_string (register_message agent_name) (ascii "host") = some agent_name ∧
      (∀ metric, metric.host = agent_name →
        json_get_string (metrics_payload metric) (ascii "host") = some agent_name) ↔ Plain agent_name) ∧
    ∀ platform now now' client client' metric metric' stored stored',
      metric.host = agent_name → Plain agent_name → metric'.host ≠ agent_name → Plain metric'.host →
      read_metric platform now client (metrics_payload metric) = .ok stored →
      read_metric platform now' client' (metrics_payload metric') = .ok stored' →
        stored.host ≠ stored'.host ∧ ∀ rule rule', Accepted platform rule → Accepted platform rule' →
          dedupe_key stored.host rule.raw_command ≠ dedupe_key stored'.host rule'.raw_command := by
  constructor
  · rw [register_host, Option.some.injEq, readBack_eq_iff]
    refine ⟨fun both => both.1, fun plain => ⟨plain, fun metric named => ?_⟩⟩
    rw [payload_string (s := metric.host) (by simp [payloadFields]), named, (readBack_eq_iff _).mpr plain]
  · rintro platform now now' client client' metric metric' stored stored' rfl plain different plain' read read'
    have hosts : stored.host ≠ stored'.host := by
      rw [read_metric_payload_host read, read_metric_payload_host read', (readBack_eq_iff _).mpr plain,
        (readBack_eq_iff _).mpr plain']
      exact Ne.symm different
    exact ⟨hosts, fun rule rule' accepted accepted' same =>
      hosts (dedupe_key_inj accepted.bar_not_mem accepted'.bar_not_mem same).1⟩

/-- The names `x"1` and `x"2` are both read back as `x\`: two machines become one host. -/
theorem quoted_agent_names_merge :
    ¬ (∀ agent_name, json_get_string (register_message agent_name) (ascii "host") = some agent_name) ∧
    ∃ metric metric' : MetricSnapshot, metric.host ≠ metric'.host ∧
      json_get_string (metrics_payload metric) (ascii "host") =
        json_get_string (metrics_payload metric') (ascii "host") := by
  refine ⟨fun readsBack => ?_, { host := ascii "x\"1" }, { host := ascii "x\"2" }, by decide, by decide +kernel⟩
  exact absurd (readsBack (ascii "x\"1")) (by decide +kernel)

end SysNetMon
