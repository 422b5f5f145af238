import Mathlib.Data.List.AList
import Mathlib.Data.List.Sort
import SysNetMon.Text.JsonWriter
import SysNetMon.Text.KeySearch

namespace SysNetMon
open Bytes Decimal KeySearch Regex

/-- The largest finite `double`. -/
def maxDouble : ℚ := (2 ^ 53 - 1) * 2 ^ 971

/-- The smallest normal `double`. -/
def minNormal : ℚ := 1 / 2 ^ 1022

/-- A `double`, held as an exact number in the range of the type. Rounding to
the nearest representable number is left out. -/
abbrev Double := { q : ℚ // |q| ≤ maxDouble }

instance : Zero Double := ⟨0, by rw [abs_zero]; unfold maxDouble; norm_num⟩

/-- What ends the process: `std::out_of_range`, which nothing catches, or a call
that neither the callers nor the operating system make (an index outside
`clients_`, a descriptor accepted while it is open). -/
inductive Abort where
  | out_of_range
  | impossible
  deriving DecidableEq

/-- What the C++ library leaves to the implementation: whether `strtod` reports
ERANGE, on which `std::stod` throws, for a non-zero decimal below the normal range. -/
structure Platform where
  strtod_underflows : ℚ → Bool

structure MetricSnapshot where
  host : Bytes := []
  timestamp : Bytes := []
  cpu_percent : Double := 0
  memory_percent : Double := 0
  disk_percent : Double := 0
  network_rx_kbps : Double := 0
  network_tx_kbps : Double := 0
  memory_used_mb : Int64 := 0
  memory_total_mb : Int64 := 0
  disk_used_mb : Int64 := 0
  disk_total_mb : Int64 := 0
  deriving DecidableEq

structure ChatMessage where
  sender : Bytes
  text : Bytes
  timestamp : Bytes
  deriving DecidableEq

structure AlertRule where
  raw_command : Bytes
  metric_key : Bytes
  display_metric : Bytes
  threshold : Double
  comparison : UInt8
  deriving DecidableEq

structure AlertEvent where
  host : Bytes
  timestamp : Bytes
  metric_key : Bytes
  display_metric : Bytes
  metric_value : Double
  threshold : Double
  rule : Bytes
  message : Bytes
  deriving DecidableEq

def trim (value : Bytes) : Bytes := (value.dropWhile isspace).rdropWhile isspace

def lower_copy (value : Bytes) : Bytes := value.map tolower

def escape_char (ch : UInt8) : Bytes :=
  if ch = backslash then [backslash, backslash]
  else if ch = quote then [backslash, quote]
  else if ch = newline then ascii "\\n"
  else if ch = 13 then ascii "\\r"
  else if ch = 9 then ascii "\\t"
  else [ch]

def escape_json (value : Bytes) : Bytes := value.flatMap escape_char

/-- The broken-down UTC time that `gmtime_r` yields for one clock reading. -/
structure Tm where
  year : ℕ
  mon : Fin 100
  mday : Fin 100
  hour : Fin 100
  min : Fin 100
  sec : Fin 100

/-- `%Y-%m-%dT%H:%M:%SZ` -/
def iso_timestamp (now : Tm) : Bytes :=
  digits now.year ++ ascii "-" ++ twoDigits now.mon ++ ascii "-" ++ twoDigits now.mday ++ ascii "T" ++
    twoDigits now.hour ++ ascii ":" ++ twoDigits now.min ++ ascii ":" ++ twoDigits now.sec ++ ascii "Z"

/-- The hundredths that `std::fixed << std::setprecision(2)` prints. -/
def cents (value : Double) : ℕ := roundHalfEven (|value.val| * 100)

def format_double (value : Double) : Bytes := signed (decide (value.val < 0)) (hundredths (cents value))

/-- `std::stod` on a numeral of the pattern `-?[0-9]+(\.[0-9]+)?`. -/
def stod (platform : Platform) (s : Bytes) : Except Abort Double :=
  if range : |readDecimal s| ≤ maxDouble then
    if 0 < |readDecimal s| ∧ |readDecimal s| < minNormal ∧ platform.strtod_underflows (readDecimal s) = true then
      .error .out_of_range
    else .ok ⟨readDecimal s, range⟩
  else .error .out_of_range

/-- `std::stoll` on a numeral of the pattern `-?[0-9]+`. -/
def stoll (s : Bytes) : Except Abort Int64 :=
  if -2 ^ 63 ≤ readInt s ∧ readInt s < 2 ^ 63 then .ok (Int64.ofInt (readInt s)) else .error .out_of_range

/-- The first capture of the first match, if there is one. -/
def captured (pattern : Regex UInt8) (payload : Bytes) : Option Bytes := (search pattern payload).bind List.head?

def json_get_string (payload key : Bytes) : Option Bytes := captured (keyValue key stringValue) payload

def json_get_number (platform : Platform) (payload key : Bytes) : Except Abort (Option Double) :=
  match captured (keyValue key numberValue) payload with
  | some numeral => (stod platform numeral).map some
  | none => .ok none

def json_get_integer (payload key : Bytes) : Except Abort (Option Int64) :=
  match captured (keyValue key integerValue) payload with
  | some numeral => (stoll numeral).map some
  | none => .ok none

/-- `"name":` followed by the text of its value. -/
def named (name : String) (text : Bytes) : Bytes := quote :: (ascii name ++ quote :: colon :: text)

/-- A literal string of the source, which goes out as it stands. -/
def literal (s : String) : Bytes := quote :: (ascii s ++ [quote])

/-- A string value, which goes out through `escape_json`. -/
def quoted (value : Bytes) : Bytes := quote :: (escape_json value ++ [quote])

def openBrace : UInt8 := 123
def closeBrace : UInt8 := 125

def metric_data_to_json (metric : MetricSnapshot) : Bytes :=
  [openBrace] ++
  named "host" (quoted metric.host) ++ [comma] ++
  named "timestamp" (quoted metric.timestamp) ++ [comma] ++
  named "cpu_percent" (format_double metric.cpu_percent) ++ [comma] ++
  named "memory_percent" (format_double metric.memory_percent) ++ [comma] ++
  named "disk_percent" (format_double metric.disk_percent) ++ [comma] ++
  named "network_rx_kbps" (format_double metric.network_rx_kbps) ++ [comma] ++
  named "network_tx_kbps" (format_double metric.network_tx_kbps) ++ [comma] ++
  named "memory_used_mb" (printInt metric.memory_used_mb.toInt) ++ [comma] ++
  named "memory_total_mb" (printInt metric.memory_total_mb.toInt) ++ [comma] ++
  named "disk_used_mb" (printInt metric.disk_used_mb.toInt) ++ [comma] ++
  named "disk_total_mb" (printInt metric.disk_total_mb.toInt) ++
  [closeBrace]

def metric_event_to_json (metric : MetricSnapshot) : Bytes :=
  [openBrace] ++ named "type" (literal "metric") ++ [comma] ++ named "data" (metric_data_to_json metric) ++
    [closeBrace]

/-- The loops of the encoders: a comma before every item but the first. -/
def joined (items : List Bytes) : Bytes :=
  (items.foldl (fun out item => (out.1 ++ (if out.2 then [] else [comma]) ++ item, false)) ([], true)).1

/-- The keys of an `unordered_map` as the `std::map` made from it lists them. -/
def ordered (metrics : AList fun _ : Bytes => MetricSnapshot) : List MetricSnapshot :=
  (metrics.entries.insertionSort fun a b => a.1 ≤ b.1).map Sigma.snd

def snapshot_event_to_json (now : Tm) (metrics : AList fun _ : Bytes => MetricSnapshot) : Bytes :=
  [openBrace] ++ named "type" (literal "snapshot") ++ [comma] ++
    named "timestamp" (quoted (iso_timestamp now)) ++ [comma] ++
    named "metrics" ([91] ++ joined ((ordered metrics).map metric_data_to_json) ++ [93]) ++ [closeBrace]

def chat_event_to_json (chat : ChatMessage) : Bytes :=
  [openBrace] ++ named "type" (literal "chat") ++ [comma] ++ named "from" (quoted chat.sender) ++ [comma] ++
    named "text" (quoted chat.text) ++ [comma] ++ named "timestamp" (quoted chat.timestamp) ++ [closeBrace]

def ack_event_to_json (message : Bytes) : Bytes :=
  [openBrace] ++ named "type" (literal "ack") ++ [comma] ++ named "message" (quoted message) ++ [closeBrace]

def error_event_to_json (message : Bytes) : Bytes :=
  [openBrace] ++ named "type" (literal "error") ++ [comma] ++ named "message" (quoted message) ++ [closeBrace]

def alert_event_to_json (alert : AlertEvent) : Bytes :=
  [openBrace] ++ named "type" (literal "alert") ++ [comma] ++ named "data" ([openBrace] ++
    named "host" (quoted alert.host) ++ [comma] ++
    named "timestamp" (quoted alert.timestamp) ++ [comma] ++
    named "metric_key" (quoted alert.metric_key) ++ [comma] ++
    named "display_metric" (quoted alert.display_metric) ++ [comma] ++
    named "metric_value" (format_double alert.metric_value) ++ [comma] ++
    named "threshold" (format_double alert.threshold) ++ [comma] ++
    named "rule" (quoted alert.rule) ++ [comma] ++
    named "message" (quoted alert.message) ++ [closeBrace]) ++ [closeBrace]

def rule_to_json (rule : AlertRule) : Bytes :=
  [openBrace] ++ named "command" (quoted rule.raw_command) ++ [comma] ++
    named "metric_key" (quoted rule.metric_key) ++ [comma] ++
    named "threshold" (format_double rule.threshold) ++ [closeBrace]

def rules_event_to_json (rules : List AlertRule) : Bytes :=
  [openBrace] ++ named "type" (literal "rules") ++ [comma] ++
    named "items" ([91] ++ joined (rules.map rule_to_json) ++ [93]) ++ [closeBrace]

/-- `[A-Za-z_]` -/
def isletter (ch : UInt8) : Bool := (65 ≤ ch && ch ≤ 90) || (97 ≤ ch && ch ≤ 122) || ch == 95

/-- `^\s*/alert\s+([A-Za-z_]+)\s*([><])\s*([0-9]+(?:\.[0-9]+)?)\s*%?\s*$`, letters in either case.
The anchors ask nothing of a match of the whole text. -/
def alertPattern : Regex UInt8 :=
  seq (star isspace) (seq (char fun ch => ch == 47) (seq (char fun ch => tolower ch == 97)
    (seq (char fun ch => tolower ch == 108) (seq (char fun ch => tolower ch == 101)
    (seq (char fun ch => tolower ch == 114) (seq (char fun ch => tolower ch == 116)
    (seq (plus isspace) (seq (group (plus isletter)) (seq (star isspace)
    (seq (group (char fun ch => ch == 62 || ch == 60)) (seq (star isspace)
    (seq (group (seq (plus isdigit) (opt (seq (char fun ch => ch == point) (plus isdigit)))))
    (seq (star isspace) (seq (opt (char fun ch => ch == 37)) (star isspace)))))))))))))))

/-- The metric a word of an alert command names: its key and its display name. -/
def metricOfToken (token : Bytes) : Option (Bytes × Bytes) :=
  if token = ascii "cpu" then some (ascii "cpu_percent", ascii "CPU")
  else if token = ascii "memory" ∨ token = ascii "mem" then some (ascii "memory_percent", ascii "Memory")
  else if token = ascii "disk" then some (ascii "disk_percent", ascii "Disk")
  else if token = ascii "rx" ∨ token = ascii "netrx" ∨ token = ascii "net_rx" ∨ token = ascii "networkrx" ∨
      token = ascii "network_rx" then some (ascii "network_rx_kbps", ascii "Network RX")
  else if token = ascii "tx" ∨ token = ascii "nettx" ∨ token = ascii "net_tx" ∨ token = ascii "networktx" ∨
      token = ascii "network_tx" then some (ascii "network_tx_kbps", ascii "Network TX")
  else none

/-- The threshold is converted before the metric word is looked up. -/
def parse_alert_command (platform : Platform) (text : Bytes) : Except Abort (Option AlertRule) :=
  match fullMatch alertPattern text with
  | some [word, comparison, numeral] => do
    let threshold ← stod platform numeral
    match metricOfToken (lower_copy word) with
    | some (metric_key, display_metric) =>
      .ok (some ⟨trim text, metric_key, display_metric, threshold, comparison.headD 0⟩)
    | none => .ok none
  | _ => .ok none

def metric_value_for_key (metric : MetricSnapshot) (key : Bytes) : Double :=
  if key = ascii "cpu_percent" then metric.cpu_percent
  else if key = ascii "memory_percent" then metric.memory_percent
  else if key = ascii "disk_percent" then metric.disk_percent
  else if key = ascii "network_rx_kbps" then metric.network_rx_kbps
  else if key = ascii "network_tx_kbps" then metric.network_tx_kbps
  else 0

def rule_matches (rule : AlertRule) (metric : MetricSnapshot) : Bool :=
  let value := metric_value_for_key metric rule.metric_key
  if rule.comparison = 62 then decide (rule.threshold.val < value.val)
  else decide (value.val < rule.threshold.val)

end SysNetMon
