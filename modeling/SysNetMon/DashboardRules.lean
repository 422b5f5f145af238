import SysNetMon.Dashboard
import SysNetMon.Wire

/-!
The rule list of a dashboard, which reaches it on registration, by broadcast and
as a reply.
-/

namespace SysNetMon
open Bytes Json

/-- The effect of an event of the server on the dashboard's rules. -/
def rulesAfter (rules : Json) : ServerEvent → Json
  | .rules items => .arr (items.map ruleRecord)
  | _ => rules

theorem DashboardState.afterAll_rules (outside : ℕ → Bytes × Json) (events : List ServerEvent)
    (state : DashboardState) : (state.afterAll outside events).rules = events.foldl rulesAfter state.rules := by
  induction events generalizing outside state with
  | nil => rfl
  | cons event events ih =>
    rw [afterAll, ih, List.foldl_cons]
    cases event <;> rfl

/-- The command text and the metric key of an item of the list. -/
def commandAndKey : Json → Option Json × Option Json
  | .obj rule => (member (ascii "command") rule, member (ascii "metric_key") rule)
  | _ => (none, none)

theorem commandAndKey_ruleRecord (rule : AlertRule) :
    commandAndKey (ruleRecord rule) = (some (.str rule.raw_command), some (.str rule.metric_key)) := by
  simp only [ruleRecord, ruleDoc, meaning, meaningMembers, commandAndKey, member]
  rfl

section Handling
variable {platform : Platform} {server after : MonitorServer} {clock : ℕ → Tm} {index : ℕ}
  {client : ClientConnection} {line : Bytes} {outputs : List Output}

/-- A line that is handled leaves the rules of a dashboard those of the server,
if they were; and it makes them so for a connection that it registers. -/
theorem Handling.rules_lines (handling : Handling platform server clock index client line after outputs)
    (distinct : (server.clients_.map ClientConnection.fd).Nodup) (atIndex : server.clients_[index]? = some client)
    {connection : ClientConnection} (member : connection ∈ after.clients_) (role : connection.role = .Dashboard)
    {rules : Json} (before : connection ∈ server.clients_ → rules = .arr (server.alert_rules_.map ruleRecord)) :
    (outputs.flatMap (Output.linesTo connection.fd)).foldl rulesAfter rules =
      .arr (after.alert_rules_.map ruleRecord) := by
  have broadcast (inClients : connection ∈ server.clients_) (event : ServerEvent) :
      (server.broadcast_to_dashboards event).linesTo connection.fd = [event] := by
    rw [MonitorServer.linesTo_broadcast distinct inClients, if_pos role]
  have reply {rules : Json} {event : ServerEvent} (kept : rulesAfter rules event = rules) :
      ((Output.send_line client.fd event).linesTo connection.fd).foldl rulesAfter rules = rules := by
    rw [Output.linesTo]
    split
    · exact kept
    · rfl
  cases handling with
  | register is =>
    rcases MonitorServer.mem_modifyClient member with ⟨other, atOther, rfl⟩ | ⟨i, elsewhere, atI⟩
    · rw [atIndex] at atOther
      cases atOther
      have lines := @MonitorServer.register_lines_self server clock index client line role
      rw [lines]
      rfl
    · rw [MonitorServer.register_lines_ne (MonitorServer.fd_ne distinct atIndex atI (Ne.symm elsewhere))]
      exact before (List.mem_of_getElem? atI)
  | store is isAgent read =>
    rw [MonitorServer.store_lines distinct member role, foldl_of_neutral, before member]
    · rfl
    · intro event inLines kept
      rcases List.mem_cons.mp inLines with rfl | raised
      · rfl
      · obtain ⟨alert, -, rfl⟩ := List.mem_map.mp raised
        rfl
  | @addRule rule is parsed =>
    rw [List.flatMap_cons, List.flatMap_cons, List.flatMap_singleton, broadcast member, broadcast member,
      List.foldl_append, List.foldl_append]
    exact reply rfl
  | listRules is =>
    rw [List.flatMap_singleton, before member]
    exact reply rfl
  | chat is =>
    rw [List.flatMap_singleton, MonitorServer.chat, broadcast member]
    exact before member
  | countHosts is =>
    rw [List.flatMap_singleton, reply rfl]
    exact before member
  | refuse _ _ =>
    rw [List.flatMap_singleton, reply rfl]
    exact before member

end Handling

/-- Invariant of a run: whatever a dashboard held before, the lines sent on its
connection leave it with the rules of the server. -/
theorem ServerRun.dashboard_rules {platform : Platform} {server : MonitorServer} {log : List Entry}
    (run : ServerRun platform server log) :
    ∀ connection ∈ server.clients_, connection.role = .Dashboard → ∀ rules,
      (wire connection.fd log).foldl rulesAfter rules = .arr (server.alert_rules_.map ruleRecord) := by
  refine run.dashboard_invariant rulesAfter
    (fun _ rules server => rules = .arr (server.alert_rules_.map ruleRecord)) ?_ ?_
  · intro log entries rules before after same _ kept
    rw [same, kept]
  · intro before after log clock index client line outputs connection rules previous handling atIndex member role same
    exact handling.rules_lines (ServerRun.fds_nodup previous) atIndex member role same

/-- For every registered dashboard connection of a run, and wherever the lines
sent on it are cut into those handled and those still in flight: once the latter
are handled too, its rules are those of the server, in order, by command text
and metric key. -/
theorem dashboard_follows_rules {platform : Platform} {server : MonitorServer} {log : List Entry}
    {connection : ClientConnection} (run : ServerRun platform server log) (member : connection ∈ server.clients_)
    (role : connection.role = .Dashboard) {delivered inflight : List ServerEvent}
    (cut : wire connection.fd log = delivered ++ inflight) (outside outside' : ℕ → Bytes × Json)
    {initial state : DashboardState}
    (handled : handle_events outside (delivered.map ServerEvent.toObject) initial = .ok state) :
    ∃ last items, handle_events outside' (inflight.map ServerEvent.toObject) state = .ok last ∧
      last.rules = .arr items ∧ items.map commandAndKey =
        server.alert_rules_.map fun rule => (some (.str rule.raw_command), some (.str rule.metric_key)) := by
  rw [handle_events_toObject] at handled
  cases handled
  refine ⟨_, server.alert_rules_.map ruleRecord, handle_events_toObject outside' inflight _, ?_, ?_⟩
  · rw [DashboardState.afterAll_rules, DashboardState.afterAll_rules, ← List.foldl_append, ← cut]
    exact run.dashboard_rules connection member role initial.rules
  · rw [List.map_map]
    exact List.map_congr_left fun rule _ => commandAndKey_ruleRecord rule

/-- A dashboard that joins between two rules and asks for the list, while the
answer to its registration is handled and the rest is in flight. -/
theorem dashboard_follows_rules_joined :
    ∃ platform server log connection, ServerRun platform server log ∧ connection ∈ server.clients_ ∧
      connection.role = .Dashboard ∧ server.alert_rules_.length = 2 ∧
      ∃ state last items,
        handle_events (fun _ => ([], .null)) (((wire connection.fd log).take 3).map ServerEvent.toObject)
          { aws := .null } = .ok state ∧
        handle_events (fun _ => ([], .null)) (((wire connection.fd log).drop 3).map ServerEvent.toObject) state =
          .ok last ∧ last.rules = .arr items ∧ items.map commandAndKey =
            server.alert_rules_.map fun rule => (some (.str rule.raw_command), some (.str rule.metric_key)) := by
  let platform : Platform := ⟨fun _ => false⟩
  let clock : ℕ → Tm := fun _ => ⟨2024, 1, 2, 3, 4, 5⟩
  let requests : List Request :=
    [.accept 4 ⟨(127, 0, 0, 1), 50000⟩, .accept 5 ⟨(127, 0, 0, 1), 50001⟩,
     .line clock 0 (ascii "\x7b\"type\":\"command\",\"text\":\"/alert CPU>80%\"\x7d"),
     .line clock 1 (ascii "\x7b\"type\":\"register\",\"role\":\"dashboard\"\x7d"),
     .line clock 1 (ascii "\x7b\"type\":\"command\",\"text\":\"/listalerts\"\x7d"),
     .line clock 0 (ascii "\x7b\"type\":\"command\",\"text\":\"/alert MEMORY>70%\"\x7d")]
  have served : MonitorServer.servesTo platform requests (fun server _ =>
      server.alert_rules_.length == 2 &&
        server.clients_.any fun connection => decide (connection.role = .Dashboard)) = true := by decide +kernel
  obtain ⟨server, log, run, tested⟩ := MonitorServer.run_of_servesTo served
  simp only [Bool.and_eq_true, List.any_eq_true, beq_iff_eq, decide_eq_true_eq] at tested
  obtain ⟨two, connection, member, role⟩ := tested
  have handled := handle_events_toObject (fun _ => ([], .null)) ((wire connection.fd log).take 3) { aws := .null }
  obtain ⟨last, items, rest⟩ := dashboard_follows_rules run member role (List.take_append_drop 3 _).symm _
    (fun _ => ([], .null)) handled
  exact ⟨platform, server, log, connection, run, member, role, two, _, last, items, handled, rest⟩

end SysNetMon
