import SysNetMon.Run

/-!
What the connections are sent: the lines that one handled line puts on each.
-/

namespace SysNetMon
open Bytes

theorem Output.eq_of_mem_linesTo {output : Output} {fd : ℕ} {event : ServerEvent}
    (member : event ∈ output.linesTo fd) : event = output.event := by
  cases output with
  | send_line target sent =>
    simp only [linesTo] at member
    split at member
    · exact List.mem_singleton.mp member
    · cases member
  | broadcast fds sent =>
    obtain ⟨_, -, rfl⟩ := List.mem_map.mp member
    rfl

theorem Output.linesTo_send_line_self (fd : ℕ) (event : ServerEvent) :
    (Output.send_line fd event).linesTo fd = [event] := if_pos rfl

theorem Output.linesTo_send_line_ne {fd target : ℕ} (other : target ≠ fd) (event : ServerEvent) :
    (Output.send_line target event).linesTo fd = [] := if_neg other

/-- A broadcast to different connections puts its event once on each of them and on no other. -/
theorem Output.linesTo_broadcast {fds : List ℕ} (distinct : fds.Nodup) (fd : ℕ) (event : ServerEvent) :
    (Output.broadcast fds event).linesTo fd = if fd ∈ fds then [event] else [] := by
  rw [linesTo, List.filter_eq, List.map_replicate]
  split
  · rename_i present
    rw [List.count_eq_one_of_mem distinct present]
    rfl
  · rename_i absent
    rw [List.count_eq_zero_of_not_mem absent]
    rfl

/-- A broadcast puts its event once on each dashboard connection and on no other. -/
theorem MonitorServer.linesTo_broadcast {server : MonitorServer} {client : ClientConnection}
    (distinct : (server.clients_.map ClientConnection.fd).Nodup) (member : client ∈ server.clients_)
    (event : ServerEvent) :
    (server.broadcast_to_dashboards event).linesTo client.fd = if client.role = .Dashboard then [event] else [] := by
  have nodup : server.dashboards.Nodup := distinct.sublist ((List.filter_sublist).map _)
  have inDashboards : client.fd ∈ server.dashboards ↔ client.role = .Dashboard := by
    simp only [dashboards, List.mem_map, List.mem_filter, decide_eq_true_eq]
    constructor
    · rintro ⟨other, ⟨inClients, role⟩, same⟩
      rwa [← List.inj_on_of_nodup_map distinct inClients member same]
    · exact fun role => ⟨client, ⟨member, role⟩, rfl⟩
  rw [broadcast_to_dashboards, Output.linesTo_broadcast nodup]
  simp only [inDashboards]

/-- A connection after one connection was changed in place: the changed one, or
one of the others as it was. -/
theorem MonitorServer.mem_modifyClient {server : MonitorServer} {index : ℕ}
    {f : ClientConnection → ClientConnection} {connection : ClientConnection}
    (member : connection ∈ (server.modifyClient index f).clients_) :
    (∃ client, server.clients_[index]? = some client ∧ connection = f client) ∨
      ∃ i, i ≠ index ∧ server.clients_[i]? = some connection := by
  obtain ⟨i, atI⟩ := List.getElem?_of_mem member
  simp only [modifyClient, List.getElem?_modify] at atI
  obtain ⟨client, atClient, rfl⟩ := Option.map_eq_some_iff.mp atI
  by_cases here : index = i
  · subst here
    exact Or.inl ⟨client, atClient, by simp⟩
  · exact Or.inr ⟨i, Ne.symm here, by simp [here, atClient]⟩

/-- Two open connections have different descriptors. -/
theorem MonitorServer.fd_ne {server : MonitorServer} (distinct : (server.clients_.map ClientConnection.fd).Nodup)
    {i j : ℕ} {client other : ClientConnection} (atI : server.clients_[i]? = some client)
    (atJ : server.clients_[j]? = some other) (ne : i ≠ j) : client.fd ≠ other.fd := by
  intro same
  refine ne ((List.getElem?_inj (by simpa using (List.getElem?_eq_some_iff.mp atI).1) distinct).mp ?_)
  rw [List.getElem?_map, List.getElem?_map, atI, atJ, Option.map_some, Option.map_some, same]

/-- A fresh descriptor is none of those of the open connections. -/
theorem MonitorServer.ne_of_fresh {server : MonitorServer} {fd : ℕ}
    (fresh : fd ∉ server.clients_.map ClientConnection.fd) {connection : ClientConnection}
    (old : connection ∈ server.clients_) : fd ≠ connection.fd := by
  rintro rfl
  exact fresh (List.mem_map_of_mem old)

/-- The events that tell of something that happened. -/
def ServerEvent.live : ServerEvent → Bool
  | metric _ => true
  | alert _ => true
  | chat _ => true
  | _ => false

/-- Live events are broadcast to the dashboards and sent in no other way. -/
theorem Handling.output_cases {platform : Platform} {server after : MonitorServer} {clock : ℕ → Tm} {index : ℕ}
    {client : ClientConnection} {line : Bytes} {outputs : List Output}
    (handling : Handling platform server clock index client line after outputs) :
    ∀ output ∈ outputs, (∃ event, output = server.broadcast_to_dashboards event) ∨
      ∃ fd event, output = .send_line fd event ∧ event.live = false := by
  intro output member
  have reply (fd : ℕ) {event : ServerEvent} (is : output = .send_line fd event) (plain : event.live = false) :
      (∃ event, output = server.broadcast_to_dashboards event) ∨
        ∃ fd event, output = .send_line fd event ∧ event.live = false := Or.inr ⟨fd, event, is, plain⟩
  cases handling with
  | register is =>
    rcases List.mem_cons.mp member with first | later
    · exact reply _ first rfl
    · split at later
      · simp only [List.mem_cons, List.not_mem_nil, or_false] at later
        exact later.elim (fun is => reply _ is rfl) (fun is => reply _ is rfl)
      · cases later
  | store is role read =>
    rcases List.mem_cons.mp member with first | raised
    · exact Or.inl ⟨_, first⟩
    · obtain ⟨alert, -, rfl⟩ := List.mem_map.mp raised
      exact Or.inl ⟨_, rfl⟩
  | addRule is parsed =>
    simp only [List.mem_cons, List.not_mem_nil, or_false] at member
    exact member.elim (fun first => Or.inl ⟨_, first⟩)
      fun later => later.elim (fun second => Or.inl ⟨_, second⟩) fun third => reply _ third rfl
  | chat is => exact Or.inl ⟨_, List.mem_singleton.mp member⟩
  | listRules is => exact reply _ (List.mem_singleton.mp member) rfl
  | countHosts is => exact reply _ (List.mem_singleton.mp member) rfl
  | refuse _ _ => exact reply _ (List.mem_singleton.mp member) rfl

/-- Alerts are broadcast to the dashboards and sent in no other way. -/
theorem Handling.alert_broadcast {platform : Platform} {server after : MonitorServer} {clock : ℕ → Tm} {index : ℕ}
    {client : ClientConnection} {line : Bytes} {outputs : List Output}
    (handling : Handling platform server clock index client line after outputs) {output : Output}
    {alert : AlertEvent} (member : output ∈ outputs) (isAlert : output.event = .alert alert) :
    output = .broadcast server.dashboards (.alert alert) := by
  rcases handling.output_cases output member with ⟨event, rfl⟩ | ⟨fd, event, rfl, plain⟩
  · cases isAlert
    rfl
  · cases isAlert
    cases plain

section Register
variable {server : MonitorServer} {clock : ℕ → Tm} {index : ℕ} {client : ClientConnection} {line : Bytes}

/-- A registration is answered to the connection that registers and to no other. -/
theorem MonitorServer.register_lines_ne {fd : ℕ} (other : client.fd ≠ fd) :
    (server.register clock index client line).2.flatMap (Output.linesTo fd) = [] := by
  rw [List.flatMap_eq_nil_iff]
  intro output member
  rcases List.mem_cons.mp member with rfl | later
  · exact Output.linesTo_send_line_ne other _
  · split at later
    · simp only [List.mem_cons, List.not_mem_nil, or_false] at later
      rcases later with rfl | rfl <;> exact Output.linesTo_send_line_ne other _
    · cases later

/-- The answer to a registration in the dashboard role: acknowledgement,
snapshot and rules. -/
theorem MonitorServer.register_lines_self
    (role : registeredRole (lower_copy ((json_get_string line (ascii "role")).getD [])) client.role = .Dashboard) :
    (server.register clock index client line).2.flatMap (Output.linesTo client.fd) =
      [.ack (ascii "registered as " ++ lower_copy ((json_get_string line (ascii "role")).getD [])),
        .snapshot (clock 0) server.latest_metrics_, .rules server.alert_rules_] := by
  simp only [register, role, if_true, List.flatMap_cons, Output.linesTo_send_line_self, List.flatMap_nil]
  rfl

end Register

/-- A stored metric goes to every dashboard, followed by the alerts it raises. -/
theorem MonitorServer.store_lines {server : MonitorServer} {clock : ℕ → Tm} {metric : MetricSnapshot}
    {connection : ClientConnection} (distinct : (server.clients_.map ClientConnection.fd).Nodup)
    (member : connection ∈ server.clients_) (role : connection.role = .Dashboard) :
    (server.store clock metric).2.flatMap (Output.linesTo connection.fd) =
      .metric metric :: (evaluate_rules metric clock server.alert_rules_ server.active_alerts_).2.map .alert := by
  have one (event : ServerEvent) : (server.broadcast_to_dashboards event).linesTo connection.fd = [event] := by
    rw [linesTo_broadcast distinct member, if_pos role]
  simp only [store, List.flatMap_cons, List.flatMap_map, one, List.singleton_append, List.cons.injEq, true_and]
  exact List.map_eq_flatMap.symm

theorem wire_handled (fd : ℕ) (log : List Entry) (h : Handled) :
    wire fd (log ++ [.handled h]) = wire fd log ++ h.outputs.flatMap (Output.linesTo fd) := by
  rw [wire_append]
  rfl

theorem wire_accepted_ne {fd other : ℕ} (ne : other ≠ fd) (log : List Entry) :
    wire fd (log ++ [.accepted other]) = wire fd log := by
  rw [wire_append]
  exact if_neg ne

theorem wire_closed (fd other : ℕ) (log : List Entry) : wire fd (log ++ [.closed other]) = wire fd log :=
  wire_append fd log _

/-- Invariant rule for what the lines sent to a dashboard leave behind: a
relation of it to the server that a handled line keeps or makes, and that goes by
the metrics and the rules of the server, holds along a run whatever was there before. -/
theorem ServerRun.dashboard_invariant {platform : Platform} {server : MonitorServer} {log : List Entry} {β : Type}
    (run : ServerRun platform server log) (f : β → ServerEvent → β) (r : List Entry → β → MonitorServer → Prop)
    (quiet : ∀ {log entries b before after}, r log b before → after.latest_metrics_ = before.latest_metrics_ →
      after.alert_rules_ = before.alert_rules_ → r (log ++ entries) b after)
    (handled : ∀ {before after log clock index client line outputs connection b}, ServerRun platform before log →
      Handling platform before clock index client line after outputs → before.clients_[index]? = some client →
      connection ∈ after.clients_ → connection.role = .Dashboard → (connection ∈ before.clients_ → r log b before) →
      r (log ++ [.handled ⟨before, clock, index, line, outputs, after⟩])
        ((outputs.flatMap (Output.linesTo connection.fd)).foldl f b) after) :
    ∀ connection ∈ server.clients_, connection.role = .Dashboard → ∀ b,
      r log ((wire connection.fd log).foldl f b) server := by
  refine run.invariant (fun server log => ∀ connection ∈ server.clients_, connection.role = .Dashboard → ∀ b,
    r log ((wire connection.fd log).foldl f b) server) (fun connection member => absurd member List.not_mem_nil) ?_
  intro before after log entries previous ih one connection member role b
  cases one with
  | @accept fd peer fresh =>
    rcases List.mem_append.mp member with old | new
    · rw [wire_accepted_ne (MonitorServer.ne_of_fresh fresh old)]
      exact quiet (ih connection old role b) rfl rfl
    · rw [List.mem_singleton.mp new] at role
      cases role
  | @buffer index pending =>
    rw [wire_append]
    rcases MonitorServer.mem_modifyClient member with ⟨client, atClient, rfl⟩ | ⟨i, -, atI⟩
    · exact quiet (ih client (List.mem_of_getElem? atClient) role b) rfl rfl
    · exact quiet (ih connection (List.mem_of_getElem? atI) role b) rfl rfl
  | @handle _ clock index line outputs line_handled =>
    obtain ⟨client, atIndex, handling⟩ := MonitorServer.handle_line_cases line_handled
    rw [wire_handled, List.foldl_append]
    exact handled previous handling atIndex member role fun inClients => ih connection inClients role b
  | disconnect _ =>
    rw [wire_closed]
    exact quiet (ih connection (List.mem_of_mem_eraseIdx member) role b) rfl rfl

end SysNetMon
