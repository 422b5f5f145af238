import SysNetMon.Common

namespace SysNetMon
open Bytes Decimal

inductive ClientRole where
  | Unknown
  | Agent
  | Dashboard
  deriving DecidableEq

/-- An open connection. `fd` is the descriptor that `accept` returned for it. -/
structure ClientConnection where
  fd : ℕ
  role : ClientRole := .Unknown
  peer_label : Bytes
  declared_host : Bytes := []
  buffer : Bytes := []
  deriving DecidableEq

/-- The state of the server that its message handling reads and writes. -/
structure MonitorServer where
  clients_ : List ClientConnection := []
  latest_metrics_ : AList (fun _ : Bytes => MetricSnapshot) := ∅
  alert_rules_ : List AlertRule := []
  active_alerts_ : AList (fun _ : Bytes => Bool) := ∅

/-- An event before it is encoded: one constructor for each encoder. -/
inductive ServerEvent where
  | ack (message : Bytes)
  | error (message : Bytes)
  | snapshot (now : Tm) (metrics : AList fun _ : Bytes => MetricSnapshot)
  | metric (data : MetricSnapshot)
  | alert (data : AlertEvent)
  | chat (message : ChatMessage)
  | rules (items : List AlertRule)

def ServerEvent.to_json : ServerEvent → Bytes
  | ack message => ack_event_to_json message
  | error message => error_event_to_json message
  | snapshot now metrics => snapshot_event_to_json now metrics
  | metric data => metric_event_to_json data
  | alert data => alert_event_to_json data
  | chat message => chat_event_to_json message
  | rules items => rules_event_to_json items

def ServerEvent.isAlert : ServerEvent → Bool
  | alert _ => true
  | _ => false

/-- What a handler puts out: a line for one connection, or a call of
`broadcast_to_dashboards` with the descriptors it sends to. -/
inductive Output where
  | send_line (fd : ℕ) (event : ServerEvent)
  | broadcast (fds : List ℕ) (event : ServerEvent)

def Output.event : Output → ServerEvent
  | send_line _ event => event
  | broadcast _ event => event

/-- The lines an output puts on the connection `fd`. -/
def Output.linesTo (fd : ℕ) : Output → List ServerEvent
  | send_line target event => if target = fd then [event] else []
  | broadcast fds event => (fds.filter fun target => target = fd).map fun _ => event

/-- The address that `accept` reports for the other end. -/
structure Peer where
  address : UInt8 × UInt8 × UInt8 × UInt8
  port : UInt16

/-- `inet_ntoa` and the port. -/
def endpoint_label (peer : Peer) : Bytes :=
  digits peer.address.1.toNat ++ ascii "." ++ digits peer.address.2.1.toNat ++ ascii "." ++
    digits peer.address.2.2.1.toNat ++ ascii "." ++ digits peer.address.2.2.2.toNat ++
    ascii ":" ++ digits peer.port.toNat

namespace MonitorServer

/-- The descriptors that `broadcast_to_dashboards` writes to, in order. -/
def dashboards (server : MonitorServer) : List ℕ :=
  (server.clients_.filter fun client => client.role = .Dashboard).map ClientConnection.fd

def broadcast_to_dashboards (server : MonitorServer) (event : ServerEvent) : Output :=
  .broadcast server.dashboards event

def accept_connection (server : MonitorServer) (fd : ℕ) (peer : Peer) : MonitorServer :=
  { server with clients_ := server.clients_ ++ [{ fd := fd, peer_label := endpoint_label peer }] }

def disconnect_client (server : MonitorServer) (index : ℕ) : MonitorServer :=
  { server with clients_ := server.clients_.eraseIdx index }

/-- `clients_[index] = f(clients_[index])` -/
def modifyClient (server : MonitorServer) (index : ℕ) (f : ClientConnection → ClientConnection) : MonitorServer :=
  { server with clients_ := server.clients_.modify index f }

end MonitorServer

def dedupe_key (host raw_command : Bytes) : Bytes := host ++ ascii "|" ++ raw_command

/-- The alert event that a rule raises on a metric, at a clock reading. -/
def alertOf (now : Tm) (metric : MetricSnapshot) (rule : AlertRule) : AlertEvent :=
  { host := metric.host
    timestamp := iso_timestamp now
    metric_key := rule.metric_key
    display_metric := rule.display_metric
    metric_value := metric_value_for_key metric rule.metric_key
    threshold := rule.threshold
    rule := rule.raw_command
    message := rule.display_metric ++ ascii " on " ++ metric.host ++ ascii " crossed threshold at " ++
      format_double (metric_value_for_key metric rule.metric_key) }

/-- The loop of `evaluate_rules`: the alert map it leaves and the alerts it
raises, in order. `clock i` is the reading for the rule at position `i`. -/
def evaluate_rules (metric : MetricSnapshot) (clock : ℕ → Tm) :
    List AlertRule → AList (fun _ : Bytes => Bool) → AList (fun _ : Bytes => Bool) × List AlertEvent
  | [], active => (active, [])
  | rule :: rules, active =>
    let key := dedupe_key metric.host rule.raw_command
    let matched := rule_matches rule metric
    let previous_match := (active.lookup key).getD false
    let rest := evaluate_rules metric (fun i => clock (i + 1)) rules (active.insert key matched)
    (rest.1, (if matched && !previous_match then [alertOf (clock 0) metric rule] else []) ++ rest.2)

/-- The metric that a metrics line of `client` carries. `iso_timestamp()` is the
argument of `value_or` and is read in any case. -/
def read_metric (platform : Platform) (now : Tm) (client : ClientConnection) (line : Bytes) :
    Except Abort MetricSnapshot := do
  let host := (json_get_string line (ascii "host")).getD client.declared_host
  let timestamp := (json_get_string line (ascii "timestamp")).getD (iso_timestamp now)
  let cpu_percent ← json_get_number platform line (ascii "cpu_percent")
  let memory_percent ← json_get_number platform line (ascii "memory_percent")
  let disk_percent ← json_get_number platform line (ascii "disk_percent")
  let network_rx_kbps ← json_get_number platform line (ascii "network_rx_kbps")
  let network_tx_kbps ← json_get_number platform line (ascii "network_tx_kbps")
  let memory_used_mb ← json_get_integer line (ascii "memory_used_mb")
  let memory_total_mb ← json_get_integer line (ascii "memory_total_mb")
  let disk_used_mb ← json_get_integer line (ascii "disk_used_mb")
  let disk_total_mb ← json_get_integer line (ascii "disk_total_mb")
  return {
    host, timestamp
    cpu_percent := cpu_percent.getD 0
    memory_percent := memory_percent.getD 0
    disk_percent := disk_percent.getD 0
    network_rx_kbps := network_rx_kbps.getD 0
    network_tx_kbps := network_tx_kbps.getD 0
    memory_used_mb := memory_used_mb.getD 0
    memory_total_mb := memory_total_mb.getD 0
    disk_used_mb := disk_used_mb.getD 0
    disk_total_mb := disk_total_mb.getD 0 }

/-- `std::string::rfind(prefix, 0) == 0` -/
def startsWith (start s : Bytes) : Bool := decide (start <+: s)

namespace MonitorServer

def handle_command (platform : Platform) (server : MonitorServer) (clock : ℕ → Tm) (client : ClientConnection)
    (text : Bytes) : Except Abort (MonitorServer × List Output) :=
  let lowered := lower_copy (trim text)
  if startsWith (ascii "/alert") lowered then do
    match ← parse_alert_command platform text with
    | none =>
      return (server, [.send_line client.fd (.error (ascii "expected /alert CPU>80% or /alert MEMORY>70%"))])
    | some rule =>
      let alert_rules_ := server.alert_rules_ ++ [rule]
      let system_message : ChatMessage :=
        { sender := ascii "system"
          text := ascii "Registered alert rule: " ++ rule.raw_command
          timestamp := iso_timestamp (clock 0) }
      return ({ server with alert_rules_ },
        [server.broadcast_to_dashboards (.chat system_message),
         server.broadcast_to_dashboards (.rules alert_rules_),
         .send_line client.fd (.ack (ascii "rule added: " ++ rule.raw_command))])
  else if lowered = ascii "/listalerts" then
    .ok (server, [.send_line client.fd (.rules server.alert_rules_)])
  else if lowered = ascii "/clients" then
    .ok (server, [.send_line client.fd
      (.ack (ascii "connected agents: " ++ digits server.latest_metrics_.keys.length))])
  else .ok (server, [.send_line client.fd (.error (ascii "unknown command"))])

def registeredRole (role : Bytes) (previous : ClientRole) : ClientRole :=
  if role = ascii "agent" then .Agent else if role = ascii "dashboard" then .Dashboard else previous

/-- The register branch of `handle_line`. -/
def register (server : MonitorServer) (clock : ℕ → Tm) (index : ℕ) (client : ClientConnection) (line : Bytes) :
    MonitorServer × List Output :=
  let role := lower_copy ((json_get_string line (ascii "role")).getD [])
  let declared_host := (json_get_string line (ascii "host")).getD client.peer_label
  let registered := registeredRole role client.role
  (server.modifyClient index fun client => { client with declared_host, role := registered },
    .send_line client.fd (.ack (ascii "registered as " ++ role)) ::
      if registered = .Dashboard then
        [.send_line client.fd (.snapshot (clock 0) server.latest_metrics_),
         .send_line client.fd (.rules server.alert_rules_)]
      else [])

/-- The metrics branch of `handle_line`, from the stored metric on. -/
def store (server : MonitorServer) (clock : ℕ → Tm) (metric : MetricSnapshot) : MonitorServer × List Output :=
  let evaluated := evaluate_rules metric clock server.alert_rules_ server.active_alerts_
  ({ server with
      latest_metrics_ := server.latest_metrics_.insert metric.host metric
      active_alerts_ := evaluated.1 },
    server.broadcast_to_dashboards (.metric metric) ::
      evaluated.2.map fun alert => server.broadcast_to_dashboards (.alert alert))

/-- The chat branch of `handle_line`. -/
def chat (server : MonitorServer) (clock : ℕ → Tm) (client : ClientConnection) (line : Bytes) : Output :=
  let sender := (json_get_string line (ascii "from")).getD
    (if client.declared_host = [] then client.peer_label else client.declared_host)
  let text := (json_get_string line (ascii "text")).getD []
  server.broadcast_to_dashboards (.chat { sender, text, timestamp := iso_timestamp (clock 0) })

/-- One received line: the server after it and what was put out, in order.
`clock` gives the readings of the clock while the line is handled. -/
def handle_line (platform : Platform) (server : MonitorServer) (clock : ℕ → Tm) (index : ℕ) (line : Bytes) :
    Except Abort (MonitorServer × List Output) :=
  match server.clients_[index]? with
  | none => .error .impossible
  | some client =>
    let type := (json_get_string line (ascii "type")).getD []
    if type = ascii "register" then .ok (server.register clock index client line)
    else if type = ascii "metrics" ∧ client.role = .Agent then do
      let metric ← read_metric platform (clock 0) client line
      return server.store (fun i => clock (i + 1)) metric
    else if type = ascii "command" then
      server.handle_command platform clock client ((json_get_string line (ascii "text")).getD [])
    else if type = ascii "chat" then .ok (server, [server.chat clock client line])
    else .ok (server, [.send_line client.fd (.error (ascii "unsupported message"))])

end MonitorServer

end SysNetMon
