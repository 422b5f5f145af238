import Mathlib.Data.Finset.Card
import Mathlib.Data.Finset.Dedup
import SysNetMon.Run

/-!
The number that `/clients` reports, which is taken from the metrics and not from
the connections.
-/

namespace SysNetMon
open Bytes Decimal

/-- The hosts of the metrics that were accepted in a run. -/
def reportedHosts (platform : Platform) (log : List Entry) : Finset Bytes :=
  ((log.filterMap (Entry.metric? platform)).map MetricSnapshot.host).toFinset

theorem reportedHosts_append (platform : Platform) (log entries : List Entry) :
    reportedHosts platform (log ++ entries) = reportedHosts platform log ∪ reportedHosts platform entries := by
  rw [reportedHosts, List.filterMap_append, List.map_append, List.toFinset_append]
  rfl

/-- The open connections in the agent role. -/
def MonitorServer.agents (server : MonitorServer) : List ClientConnection :=
  server.clients_.filter fun client => client.role = .Agent

/-- A step adds the host that it reports to those that metrics are kept for, and
no step removes one. -/
theorem ServerStep.mem_latest_metrics {platform : Platform} {server after : MonitorServer} {entries : List Entry}
    (one : ServerStep platform server entries after) (host : Bytes) :
    host ∈ after.latest_metrics_ ↔ host ∈ server.latest_metrics_ ∨ host ∈ reportedHosts platform entries := by
  cases one with
  | @handle _ clock index line outputs handled =>
    rcases Handled.accepted_cases (h := ⟨server, clock, index, line, outputs, after⟩) handled with
      ⟨metric, accepted, stored⟩ | ⟨accepted, latest, -⟩
    · have afterEq : after = (server.store (fun i => clock (i + 1)) metric).1 := congrArg Prod.fst stored
      have reported : reportedHosts platform [.handled ⟨server, clock, index, line, outputs, after⟩] =
          {metric.host} := by
        simp [reportedHosts, Entry.metric?, Entry.handled?, accepted]
      rw [reported, afterEq, MonitorServer.store, AList.mem_insert, Finset.mem_singleton, or_comm]
    · have reported : reportedHosts platform [.handled ⟨server, clock, index, line, outputs, after⟩] = ∅ := by
        simp [reportedHosts, Entry.metric?, Entry.handled?, accepted]
      change after.latest_metrics_ = server.latest_metrics_ at latest
      simp [reported, latest]
  | _ =>
    simp [reportedHosts, Entry.metric?, Entry.handled?, MonitorServer.accept_connection, MonitorServer.modifyClient,
      MonitorServer.disconnect_client]

/-- The metrics are kept for the hosts that were ever reported. -/
theorem ServerRun.keys_latest_metrics {platform : Platform} {server : MonitorServer} {log : List Entry}
    (run : ServerRun platform server log) : server.latest_metrics_.keys.toFinset = reportedHosts platform log := by
  refine run.invariant (fun server log => server.latest_metrics_.keys.toFinset = reportedHosts platform log) rfl ?_
  intro server after log entries _ ih one
  rw [reportedHosts_append, ← ih]
  ext host
  simp only [Finset.mem_union, List.mem_toFinset, ← AList.mem_keys]
  exact one.mem_latest_metrics host

section Clients
variable {platform : Platform} {server after : MonitorServer} {log : List Entry} {clock : ℕ → Tm} {index : ℕ}
  {client : ClientConnection} {line : Bytes} {outputs : List Output}

/-- The reply to `/clients`. -/
theorem MonitorServer.handle_line_clients_command (atIndex : server.clients_[index]? = some client)
    (is : lineType line = ascii "command") (text : lower_copy (trim (lineText line)) = ascii "/clients") :
    server.handle_line platform clock index line = .ok (server, [.send_line client.fd
      (.ack (ascii "connected agents: " ++ digits server.latest_metrics_.keys.length))]) := by
  rw [lineType] at is
  rw [lineText] at text
  have notRegister : ascii "command" ≠ ascii "register" := by decide
  have notMetrics : ascii "command" ≠ ascii "metrics" := by decide
  have notAlert : startsWith (ascii "/alert") (ascii "/clients") = false := by decide
  have notList : ascii "/clients" ≠ ascii "/listalerts" := by decide
  simp only [handle_line, atIndex, is, if_neg notRegister, notMetrics, false_and, if_false, if_true, handle_command,
    text, notAlert, if_neg notList, Bool.false_eq_true]

/-- In every reachable state, `/clients` reports the number of open agent
connections exactly when there are as many of them as hosts that were reported
in the run so far. -/
theorem clients_reply_iff (run : ServerRun platform server log) (atIndex : server.clients_[index]? = some client)
    (is : lineType line = ascii "command") (text : lower_copy (trim (lineText line)) = ascii "/clients") :
    server.handle_line platform clock index line = .ok (server, [.send_line client.fd
        (.ack (ascii "connected agents: " ++ digits server.agents.length))]) ↔
      (reportedHosts platform log).card = server.agents.length := by
  have counted : server.latest_metrics_.keys.length = (reportedHosts platform log).card := by
    rw [← run.keys_latest_metrics, List.toFinset_card_of_nodup server.latest_metrics_.keys_nodup]
  rw [MonitorServer.handle_line_clients_command atIndex is text, counted]
  constructor
  · intro same
    simp only [Except.ok.injEq, Prod.mk.injEq, true_and, List.cons.injEq, Output.send_line.injEq,
      ServerEvent.ack.injEq, List.append_cancel_left_eq, and_true] at same
    exact digits_inj same
  · intro same
    rw [same]

end Clients

/-- A host that reports and then asks. -/
theorem clients_reply_iff_reported :
    ∃ platform, ∃ server : MonitorServer, ∃ clock line client, server.agents.length = 1 ∧
      server.handle_line platform clock 0 line = .ok (server, [.send_line (ClientConnection.fd client)
        (.ack (ascii "connected agents: " ++ digits server.agents.length))]) := by
  let platform : Platform := ⟨fun _ => false⟩
  let clock : ℕ → Tm := fun _ => ⟨2024, 1, 2, 3, 4, 5⟩
  let requests : List Request :=
    [.accept 4 ⟨(127, 0, 0, 1), 50000⟩,
     .line clock 0 (ascii "\x7b\"type\":\"register\",\"role\":\"agent\"\x7d"),
     .line clock 0 (ascii "\x7b\"type\":\"metrics\",\"host\":\"a\"\x7d"),
     .line clock 0 (ascii "\x7b\"type\":\"metrics\",\"host\":\"a\"\x7d")]
  let line := ascii "\x7b\"type\":\"command\",\"text\":\"/clients\"\x7d"
  have served : MonitorServer.servesTo platform requests (fun server log => server.clients_.length == 1 &&
      server.agents.length == 1 && (reportedHosts platform log).card == 1) = true := by decide +kernel
  obtain ⟨server, log, run, tested⟩ := MonitorServer.run_of_servesTo served
  simp only [Bool.and_eq_true, beq_iff_eq] at tested
  obtain ⟨⟨open_, agents⟩, reported⟩ := tested
  obtain ⟨client, only⟩ := List.length_eq_one_iff.mp open_
  exact ⟨platform, server, clock, line, client, agents, (clients_reply_iff run (by rw [only]; rfl) (by decide +kernel)
    (by decide +kernel)).mpr (reported.trans agents.symm)⟩

/-- An agent that has registered and not reported yet. -/
theorem silent_agent_not_counted :
    ¬ ∀ platform server log clock index client line, ServerRun platform server log →
      server.clients_[index]? = some client → lineType line = ascii "command" →
      lower_copy (trim (lineText line)) = ascii "/clients" →
      server.handle_line platform clock index line = .ok (server, [.send_line client.fd
        (.ack (ascii "connected agents: " ++ digits server.agents.length))]) := by
  intro counts
  let platform : Platform := ⟨fun _ => false⟩
  let clock : ℕ → Tm := fun _ => ⟨2024, 1, 2, 3, 4, 5⟩
  let requests : List Request :=
    [.accept 4 ⟨(127, 0, 0, 1), 50000⟩, .line clock 0 (ascii "\x7b\"type\":\"register\",\"role\":\"agent\"\x7d")]
  let line := ascii "\x7b\"type\":\"command\",\"text\":\"/clients\"\x7d"
  have served : MonitorServer.servesTo platform requests (fun server _ => server.clients_.length == 1 &&
      server.agents.length == 1 && server.latest_metrics_.keys.length == 0) = true := by decide +kernel
  obtain ⟨server, log, run, tested⟩ := MonitorServer.run_of_servesTo served
  simp only [Bool.and_eq_true, beq_iff_eq] at tested
  obtain ⟨⟨open_, agents⟩, none⟩ := tested
  obtain ⟨client, only⟩ := List.length_eq_one_iff.mp open_
  have atIndex : server.clients_[0]? = some client := by
    rw [only]
    rfl
  have is : lineType line = ascii "command" := by decide +kernel
  have text : lower_copy (trim (lineText line)) = ascii "/clients" := by decide +kernel
  have reply := counts platform server log clock 0 client line run atIndex is text
  rw [MonitorServer.handle_line_clients_command atIndex is text, none, agents] at reply
  simp only [Except.ok.injEq, Prod.mk.injEq, true_and, List.cons.injEq, Output.send_line.injEq,
    ServerEvent.ack.injEq, List.append_cancel_left_eq, and_true] at reply
  exact absurd (digits_inj reply) (by decide)

end SysNetMon
