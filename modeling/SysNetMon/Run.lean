import SysNetMon.Server
import SysNetMon.Transition

namespace SysNetMon
open Bytes

theorem bind_eq_ok_iff {ε α β : Type} {x : Except ε α} {f : α → Except ε β} {b : β} :
    x >>= f = .ok b ↔ ∃ a, x = .ok a ∧ f a = .ok b := by
  cases x with
  | error abort => simp [bind, Except.bind]
  | ok a => simp [bind, Except.bind]

theorem eq_ok_of_toOption {ε α : Type} {x : Except ε α} {a : α} (found : x.toOption = some a) : x = .ok a := by
  cases x with
  | error abort => cases found
  | ok _ => exact congrArg Except.ok (Option.some.inj found)

/-- The strings of a metric that was read: those of the line, or the defaults. -/
theorem read_metric_strings {platform : Platform} {now : Tm} {client : ClientConnection} {line : Bytes}
    {metric : MetricSnapshot} (read : read_metric platform now client line = .ok metric) :
    metric.host = (json_get_string line (ascii "host")).getD client.declared_host ∧
      metric.timestamp = (json_get_string line (ascii "timestamp")).getD (iso_timestamp now) := by
  simp only [read_metric, bind_eq_ok_iff] at read
  obtain ⟨_, _, _, _, _, _, _, _, _, _, _, _, _, _, _, _, _, _, result⟩ := read
  cases result
  exact ⟨rfl, rfl⟩

/-- One line that was handled: the server before and after it, and what was put out. -/
structure Handled where
  before : MonitorServer
  clock : ℕ → Tm
  index : ℕ
  line : Bytes
  outputs : List Output
  after : MonitorServer

/-- What a run of the server records. -/
inductive Entry where
  | accepted (fd : ℕ)
  | handled (h : Handled)
  | closed (fd : ℕ)

def Entry.handled? : Entry → Option Handled
  | handled h => some h
  | _ => none

theorem mem_of_handled? {log : List Entry} {h : Handled} (member : h ∈ log.filterMap Entry.handled?) :
    .handled h ∈ log := by
  obtain ⟨entry, inLog, is⟩ := List.mem_filterMap.mp member
  cases entry with
  | handled other =>
    cases is
    exact inLog
  | accepted => cases is
  | closed => cases is

/-- The steps of the server, in any order: a connection is accepted under a
descriptor that is not open, bytes wait in a buffer, a line is handled, a
connection is closed. -/
inductive ServerStep (platform : Platform) : MonitorServer → List Entry → MonitorServer → Prop
  | accept {server fd peer} : fd ∉ server.clients_.map ClientConnection.fd →
      ServerStep platform server [.accepted fd] (server.accept_connection fd peer)
  | buffer {server index pending} :
      ServerStep platform server [] (server.modifyClient index fun client => { client with buffer := pending })
  | handle {server after clock index line outputs} :
      server.handle_line platform clock index line = .ok (after, outputs) →
      ServerStep platform server [.handled ⟨server, clock, index, line, outputs, after⟩] after
  | disconnect {server index client} : server.clients_[index]? = some client →
      ServerStep platform server [.closed client.fd] (server.disconnect_client index)

/-- The runs of the server from its empty state. -/
abbrev ServerRun (platform : Platform) : MonitorServer → List Entry → Prop :=
  LoggedRun {} (ServerStep platform)

def wireStep (fd : ℕ) (sent : List ServerEvent) : Entry → List ServerEvent
  | .accepted other => if other = fd then [] else sent
  | .handled h => sent ++ h.outputs.flatMap (Output.linesTo fd)
  | .closed _ => sent

/-- The lines sent on the connection that `fd` names now, since it was accepted. -/
def wire (fd : ℕ) (log : List Entry) : List ServerEvent := log.foldl (wireStep fd) []

theorem wire_append (fd : ℕ) (log entries : List Entry) :
    wire fd (log ++ entries) = entries.foldl (wireStep fd) (wire fd log) :=
  List.foldl_append

/-- The message type that `handle_line` goes by. -/
def lineType (line : Bytes) : Bytes := (json_get_string line (ascii "type")).getD []

/-- The text of a command line. -/
def lineText (line : Bytes) : Bytes := (json_get_string line (ascii "text")).getD []

/-- The numeric fields of a metrics line. -/
def numberKeys : List Bytes :=
  [ascii "cpu_percent", ascii "memory_percent", ascii "disk_percent", ascii "network_rx_kbps",
    ascii "network_tx_kbps"]

def integerKeys : List Bytes :=
  [ascii "memory_used_mb", ascii "memory_total_mb", ascii "disk_used_mb", ascii "disk_total_mb"]

section Handling
variable {platform : Platform} {server after : MonitorServer} {clock : ℕ → Tm} {index : ℕ}
  {client : ClientConnection} {line : Bytes} {outputs : List Output}

/-- Everything that handling a line can do, one case for each branch of the source. -/
inductive Handling (platform : Platform) (server : MonitorServer) (clock : ℕ → Tm) (index : ℕ)
    (client : ClientConnection) (line : Bytes) : MonitorServer → List Output → Prop
  | register : lineType line = ascii "register" →
      Handling platform server clock index client line (server.register clock index client line).1
        (server.register clock index client line).2
  | store {metric} : lineType line = ascii "metrics" → client.role = .Agent →
      read_metric platform (clock 0) client line = .ok metric →
      Handling platform server clock index client line (server.store (fun i => clock (i + 1)) metric).1
        (server.store (fun i => clock (i + 1)) metric).2
  | addRule {rule} : lineType line = ascii "command" →
      parse_alert_command platform (lineText line) = .ok (some rule) →
      Handling platform server clock index client line
        { server with alert_rules_ := server.alert_rules_ ++ [rule] }
        [server.broadcast_to_dashboards (.chat
          ⟨ascii "system", ascii "Registered alert rule: " ++ rule.raw_command, iso_timestamp (clock 0)⟩),
         server.broadcast_to_dashboards (.rules (server.alert_rules_ ++ [rule])),
         .send_line client.fd (.ack (ascii "rule added: " ++ rule.raw_command))]
  | listRules : lineType line = ascii "command" →
      Handling platform server clock index client line server [.send_line client.fd (.rules server.alert_rules_)]
  | countHosts : lineType line = ascii "command" →
      Handling platform server clock index client line server [.send_line client.fd
        (.ack (ascii "connected agents: " ++ Decimal.digits server.latest_metrics_.keys.length))]
  | chat : lineType line = ascii "chat" →
      Handling platform server clock index client line server [server.chat clock client line]
  | refuse {message} : ¬ (lineType line = ascii "metrics" ∧ client.role = .Agent) →
      message ∈ [ascii "unsupported message", ascii "unknown command",
        ascii "expected /alert CPU>80% or /alert MEMORY>70%"] →
      Handling platform server clock index client line server [.send_line client.fd (.error message)]

theorem MonitorServer.handle_command_cases (isCommand : lineType line = ascii "command")
    (run : server.handle_command platform clock client (lineText line) = .ok (after, outputs)) :
    Handling platform server clock index client line after outputs := by
  have notMetrics : ¬ (lineType line = ascii "metrics" ∧ client.role = .Agent) := by
    rw [isCommand]
    exact fun both => absurd both.1 (by decide)
  unfold handle_command at run
  dsimp only at run
  split at run
  · cases parsed : parse_alert_command platform (lineText line) with
    | error abort =>
      rw [parsed] at run
      cases run
    | ok result =>
      rw [parsed] at run
      cases result with
      | none =>
        cases run
        exact .refuse notMetrics (by simp)
      | some rule =>
        cases run
        exact .addRule isCommand parsed
  · split at run
    · cases run
      exact .listRules isCommand
    · split at run
      · cases run
        exact .countHosts isCommand
      · cases run
        exact .refuse notMetrics (by simp)

/-- The inversion of `handle_line`: the connection the line came from and the
branch that was taken. Every invariant of the server is derived from it. -/
theorem MonitorServer.handle_line_cases
    (run : server.handle_line platform clock index line = .ok (after, outputs)) :
    ∃ client, server.clients_[index]? = some client ∧
      Handling platform server clock index client line after outputs := by
  unfold handle_line at run
  cases atIndex : server.clients_[index]? with
  | none =>
    rw [atIndex] at run
    cases run
  | some client =>
    rw [atIndex] at run
    refine ⟨client, rfl, ?_⟩
    dsimp only at run
    split at run
    · rename_i isRegister
      cases run
      exact .register isRegister
    · split at run
      · rename_i isMetrics
        cases read : read_metric platform (clock 0) client line with
        | error abort =>
          rw [read] at run
          cases run
        | ok metric =>
          rw [read] at run
          cases run
          exact .store isMetrics.1 isMetrics.2 read
      · rename_i notMetrics
        split at run
        · rename_i isCommand
          exact handle_command_cases isCommand run
        · split at run
          · rename_i isChat
            cases run
            exact .chat isChat
          · cases run
            exact .refuse notMetrics (by simp)

/-- The open connections: their descriptors and what waits in their buffers. -/
def MonitorServer.connections (server : MonitorServer) : List (ℕ × Bytes) :=
  server.clients_.map fun client => (client.fd, client.buffer)

/-- Changing one connection in place leaves whatever the change keeps. -/
theorem MonitorServer.map_modifyClient {β : Type} (server : MonitorServer) (index : ℕ)
    {f : ClientConnection → ClientConnection} {g : ClientConnection → β} (keeps : ∀ client, g (f client) = g client) :
    (server.modifyClient index f).clients_.map g = server.clients_.map g := by
  refine List.ext_getElem? fun i => ?_
  simp only [modifyClient, List.getElem?_map, List.getElem?_modify]
  split <;> simp [Function.comp_def, keeps]

/-- Handling a line neither opens nor closes a connection, and it touches no
buffer: it changes what a connection is registered as. -/
theorem Handling.connections (handling : Handling platform server clock index client line after outputs) :
    after.connections = server.connections := by
  cases handling with
  | register => exact server.map_modifyClient index fun _ => rfl
  | _ => rfl

theorem MonitorServer.fst_connections (server : MonitorServer) :
    server.connections.map Prod.fst = server.clients_.map ClientConnection.fd := List.map_map

theorem Handling.fds (handling : Handling platform server clock index client line after outputs) :
    after.clients_.map ClientConnection.fd = server.clients_.map ClientConnection.fd := by
  rw [← after.fst_connections, handling.connections, server.fst_connections]

end Handling

/-- The metric that the server accepts with a line: the line says `metrics` and
comes from a connection in the agent role. -/
def Handled.accepted (platform : Platform) (h : Handled) : Option MetricSnapshot :=
  match h.before.clients_[h.index]? with
  | some client =>
    if lineType h.line = ascii "metrics" ∧ client.role = .Agent then
      (read_metric platform (h.clock 0) client h.line).toOption
    else none
  | none => none

/-- The metric that the server accepts with what an entry records. -/
def Entry.metric? (platform : Platform) (entry : Entry) : Option MetricSnapshot :=
  entry.handled?.bind fun h => h.accepted platform

theorem Handled.accepted_of_read {platform : Platform} {before after : MonitorServer} {clock : ℕ → Tm} {index : ℕ}
    {client : ClientConnection} {line : Bytes} {outputs : List Output} {metric : MetricSnapshot}
    (atIndex : before.clients_[index]? = some client) (is : lineType line = ascii "metrics")
    (role : client.role = .Agent) (read : read_metric platform (clock 0) client line = .ok metric) :
    Handled.accepted platform ⟨before, clock, index, line, outputs, after⟩ = some metric := by
  simp [accepted, atIndex, is, role, read, Except.toOption]

/-- What handling a line does to the metrics and the alert map: an accepted
metric is stored, and every other line leaves both alone and raises no alert. -/
theorem Handled.accepted_cases {platform : Platform} {h : Handled}
    (run : h.before.handle_line platform h.clock h.index h.line = .ok (h.after, h.outputs)) :
    (∃ metric, h.accepted platform = some metric ∧
      (h.after, h.outputs) = h.before.store (fun i => h.clock (i + 1)) metric) ∨
    (h.accepted platform = none ∧ h.after.latest_metrics_ = h.before.latest_metrics_ ∧
      h.after.active_alerts_ = h.before.active_alerts_ ∧
      ∀ fds event, .broadcast fds event ∈ h.outputs →
        (∀ metric, event ≠ .metric metric) ∧ ∀ alert, event ≠ .alert alert) := by
  obtain ⟨before, clock, index, line, outputs, after⟩ := h
  change before.handle_line platform clock index line = .ok (after, outputs) at run
  obtain ⟨client, atIndex, handling⟩ := MonitorServer.handle_line_cases run
  have other {type : String} (is : lineType line = ascii type) (differs : ascii type ≠ ascii "metrics") :
      Handled.accepted platform ⟨before, clock, index, line, outputs, after⟩ = none := by
    simp [accepted, atIndex, is, differs]
  cases handling with
  | register is =>
    refine Or.inr ⟨other is (by decide), rfl, rfl, fun fds event member => ?_⟩
    simp only [MonitorServer.register] at member
    split at member <;> simp at member
  | @store metric is role read =>
    exact Or.inl ⟨metric, accepted_of_read atIndex is role read, rfl⟩
  | addRule is parsed =>
    refine Or.inr ⟨other is (by decide), rfl, rfl, fun fds event member => ?_⟩
    simp only [MonitorServer.broadcast_to_dashboards, List.mem_cons, Output.broadcast.injEq, reduceCtorEq,
      List.not_mem_nil, or_false] at member
    rcases member with ⟨-, rfl⟩ | ⟨-, rfl⟩ <;> simp
  | listRules is => exact Or.inr ⟨other is (by decide), rfl, rfl, fun fds event member => by simp at member⟩
  | countHosts is => exact Or.inr ⟨other is (by decide), rfl, rfl, fun fds event member => by simp at member⟩
  | chat is =>
    refine Or.inr ⟨other is (by decide), rfl, rfl, fun fds event member => ?_⟩
    simp only [MonitorServer.chat, MonitorServer.broadcast_to_dashboards, List.mem_singleton,
      Output.broadcast.injEq] at member
    rw [member.2]
    simp
  | refuse notMetrics _ =>
    refine Or.inr ⟨?_, rfl, rfl, fun fds event member => by simp at member⟩
    simp only [accepted, atIndex, if_neg notMetrics]

/-- Each handled line that a run records was handled in the state that the run
had reached. -/
theorem ServerRun.handled {platform : Platform} {server : MonitorServer} {log : List Entry}
    (run : ServerRun platform server log) {h : Handled} (member : .handled h ∈ log) :
    ∃ earlier later, log = earlier ++ .handled h :: later ∧ ServerRun platform h.before earlier ∧
      h.before.handle_line platform h.clock h.index h.line = .ok (h.after, h.outputs) := by
  revert h
  refine run.invariant (fun _ log => ∀ {h : Handled}, .handled h ∈ log →
    ∃ earlier later, log = earlier ++ .handled h :: later ∧ ServerRun platform h.before earlier ∧
      h.before.handle_line platform h.clock h.index h.line = .ok (h.after, h.outputs)) (by simp) ?_
  intro server after log entries previous ih one h member
  rcases List.mem_append.mp member with old | new
  · obtain ⟨earlier, later, rfl, reached, handled⟩ := ih old
    exact ⟨earlier, later ++ entries, by simp, reached, handled⟩
  · cases one with
    | handle handled =>
      cases List.mem_singleton.mp new
      exact ⟨log, [], rfl, previous, handled⟩
    | accept _ => cases List.mem_singleton.mp new
    | buffer => cases new
    | disconnect _ => cases List.mem_singleton.mp new

/-- Open descriptors are pairwise distinct. -/
theorem ServerRun.fds_nodup {platform : Platform} {server : MonitorServer} {log : List Entry}
    (run : ServerRun platform server log) : (server.clients_.map ClientConnection.fd).Nodup := by
  refine run.state_invariant (fun server => (server.clients_.map ClientConnection.fd).Nodup) (by simp) ?_
  intro server after entries distinct one
  cases one with
  | accept fresh =>
    simp only [MonitorServer.accept_connection, List.map_append, List.map_cons, List.map_nil]
    exact distinct.append (List.nodup_singleton _) (by simpa using fresh)
  | buffer =>
    rw [MonitorServer.map_modifyClient]
    · exact distinct
    · exact fun _ => rfl
  | handle handled =>
    obtain ⟨client, _, handling⟩ := MonitorServer.handle_line_cases handled
    rw [handling.fds]
    exact distinct
  | disconnect _ =>
    exact distinct.sublist ((List.eraseIdx_sublist _ _).map _)

/-- What reaches the server from outside, one item at a time. -/
inductive Request where
  | accept (fd : ℕ) (peer : Peer)
  | line (clock : ℕ → Tm) (index : ℕ) (line : Bytes)
  | disconnect (index : ℕ)

namespace MonitorServer

def serveOne (platform : Platform) (server : MonitorServer) : Request → Except Abort (MonitorServer × List Entry)
  | .accept fd peer =>
    if fd ∈ server.clients_.map ClientConnection.fd then .error .impossible
    else .ok (server.accept_connection fd peer, [.accepted fd])
  | .line clock index line => do
    let (after, outputs) ← server.handle_line platform clock index line
    return (after, [.handled ⟨server, clock, index, line, outputs, after⟩])
  | .disconnect index =>
    match server.clients_[index]? with
    | none => .error .impossible
    | some client => .ok (server.disconnect_client index, [.closed client.fd])

/-- The server run on a list of requests, until one of them ends the process. -/
def serve (platform : Platform) : MonitorServer → List Request → Except Abort (MonitorServer × List Entry)
  | server, [] => .ok (server, [])
  | server, request :: requests => do
    let (middle, entries) ← server.serveOne platform request
    let (after, log) ← middle.serve platform requests
    return (after, entries ++ log)

theorem serveOne_step {platform : Platform} {server after : MonitorServer} {request : Request}
    {entries : List Entry} (run : server.serveOne platform request = .ok (after, entries)) :
    ServerStep platform server entries after := by
  cases request with
  | accept fd peer =>
    simp only [serveOne] at run
    split at run
    · cases run
    · rename_i fresh
      cases run
      exact .accept fresh
  | line clock index line =>
    cases handled : server.handle_line platform clock index line with
    | error abort =>
      simp only [serveOne, handled] at run
      cases run
    | ok result =>
      simp only [serveOne, handled] at run
      cases run
      exact .handle handled
  | disconnect index =>
    simp only [serveOne] at run
    split at run
    · cases run
    · rename_i client at_
      cases run
      exact .disconnect at_

/-- What the executed server does continues a run. -/
theorem serve_run {platform : Platform} {start server after : MonitorServer} {requests : List Request}
    {log log' : List Entry} (run : LoggedRun start (ServerStep platform) server log)
    (served : server.serve platform requests = .ok (after, log')) :
    LoggedRun start (ServerStep platform) after (log ++ log') := by
  induction requests generalizing server log log' with
  | nil =>
    cases served
    simpa using run
  | cons request requests ih =>
    cases first : server.serveOne platform request with
    | error abort =>
      simp only [serve, first] at served
      cases served
    | ok result =>
      obtain ⟨middle, entries⟩ := result
      cases rest : middle.serve platform requests with
      | error abort =>
        simp only [serve, first, rest, bind, Except.bind] at served
        cases served
      | ok result =>
        obtain ⟨last, tail⟩ := result
        simp only [serve, first, rest, bind, Except.bind] at served
        cases served
        rw [← List.append_assoc]
        exact ih (.next run (serveOne_step first)) rest

/-- The requests are served to the end, with a result that passes the test. -/
def servesTo (platform : Platform) (requests : List Request) (test : MonitorServer → List Entry → Bool) : Bool :=
  match serve platform {} requests with
  | .ok (server, log) => test server log
  | .error _ => false

theorem run_of_servesTo {platform : Platform} {requests : List Request} {test : MonitorServer → List Entry → Bool}
    (served : servesTo platform requests test = true) :
    ∃ server log, ServerRun platform server log ∧ test server log = true := by
  unfold servesTo at served
  split at served
  · rename_i server log result
    exact ⟨server, log, serve_run .start result, served⟩
  · cases served

end MonitorServer

end SysNetMon
