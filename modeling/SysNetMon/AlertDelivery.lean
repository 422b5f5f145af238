import SysNetMon.AlertEdges

namespace SysNetMon
open Bytes RisingEdge

/-- An alert for the host and the rule text. -/
def IsAlert (host raw_command : Bytes) (event : ServerEvent) : Prop :=
  ∃ alert : AlertEvent, event = .alert alert ∧ alert.host = host ∧ alert.rule = raw_command

section Lines
variable {platform : Platform} {host raw_command : Bytes} {fd : ℕ}

/-- A handled line sends an alert on a connection if it raises the alert and the
connection is a dashboard at that time. -/
theorem Handled.alert_line_iff {h : Handled}
    (run : h.before.handle_line platform h.clock h.index h.line = .ok (h.after, h.outputs)) :
    (∃ event ∈ h.outputs.flatMap (Output.linesTo fd), IsAlert host raw_command event) ↔
      fd ∈ h.before.dashboards ∧ alertCount host raw_command h.outputs ≠ 0 := by
  obtain ⟨client, -, handling⟩ := MonitorServer.handle_line_cases run
  rw [alertCount, Ne, List.countP_eq_zero]
  constructor
  · rintro ⟨event, inLines, alert, rfl, rfl, rfl⟩
    obtain ⟨output, inOutputs, inLine⟩ := List.mem_flatMap.mp inLines
    have broadcast := handling.alert_broadcast inOutputs (Output.eq_of_mem_linesTo inLine).symm
    rw [broadcast] at inLine inOutputs
    obtain ⟨target, inTargets, -⟩ := List.mem_map.mp inLine
    have targets := List.mem_filter.mp inTargets
    refine ⟨of_decide_eq_true targets.2 ▸ targets.1, fun none => none _ inOutputs ?_⟩
    simp
  · rintro ⟨present, some_⟩
    simp only [not_forall, Decidable.not_not] at some_
    obtain ⟨output, inOutputs, counted⟩ := some_
    split at counted
    · rename_i fds alert
      have isAlert := of_decide_eq_true counted
      have broadcast := handling.alert_broadcast inOutputs (show Output.event (.broadcast fds (.alert alert)) = _ from rfl)
      refine ⟨.alert alert, List.mem_flatMap.mpr ⟨_, inOutputs, ?_⟩, alert, rfl, isAlert⟩
      rw [broadcast]
      exact List.mem_map.mpr ⟨fd, List.mem_filter.mpr ⟨present, decide_eq_true rfl⟩, rfl⟩
    · cases counted

end Lines

/-- The lines of a stretch of a log on a connection: those that were sent
before, if it is not accepted anew, and those of the handled lines. -/
theorem mem_foldl_wireStep {fd : ℕ} {entries : List Entry} {sent : List ServerEvent} {event : ServerEvent}
    (member : event ∈ entries.foldl (wireStep fd) sent) :
    (event ∈ sent ∧ .accepted fd ∉ entries) ∨
      ∃ h, .handled h ∈ entries ∧ event ∈ h.outputs.flatMap (Output.linesTo fd) := by
  induction entries generalizing sent with
  | nil => exact Or.inl ⟨member, List.not_mem_nil⟩
  | cons entry entries ih =>
    rcases ih member with ⟨here, notLater⟩ | ⟨h, later, inLines⟩
    · cases entry with
      | accepted other =>
        by_cases same : other = fd
        · rw [wireStep, if_pos same] at here
          cases here
        · rw [wireStep, if_neg same] at here
          refine Or.inl ⟨here, fun inEntries => ?_⟩
          rcases List.mem_cons.mp inEntries with first | later
          · cases first
            exact same rfl
          · exact notLater later
      | handled h =>
        rcases List.mem_append.mp here with old | new
        · exact Or.inl ⟨old, by simpa using notLater⟩
        · exact Or.inr ⟨h, List.mem_cons_self, new⟩
      | closed other => exact Or.inl ⟨here, by simpa using notLater⟩
    · exact Or.inr ⟨h, List.mem_cons_of_mem _ later, inLines⟩

/-- What is sent on a connection is the event of something that was put out. -/
theorem mem_wire {fd : ℕ} {log : List Entry} {event : ServerEvent} (member : event ∈ wire fd log) :
    ∃ h, .handled h ∈ log ∧ ∃ output ∈ h.outputs, event = output.event := by
  rcases mem_foldl_wireStep member with ⟨absent, -⟩ | ⟨h, inLog, inLines⟩
  · cases absent
  · obtain ⟨output, inOutputs, sent⟩ := List.mem_flatMap.mp inLines
    exact ⟨h, inLog, output, inOutputs, Output.eq_of_mem_linesTo sent⟩

/-- What was sent stays sent while the connection is not accepted anew. -/
theorem mem_foldl_wireStep_of_mem {fd : ℕ} {entries : List Entry} {sent : List ServerEvent} {event : ServerEvent}
    (member : event ∈ sent) (kept : .accepted fd ∉ entries) : event ∈ entries.foldl (wireStep fd) sent := by
  induction entries generalizing sent with
  | nil => exact member
  | cons entry entries ih =>
    rw [List.mem_cons, not_or] at kept
    refine ih ?_ kept.2
    cases entry with
    | accepted other =>
      have ne : other ≠ fd := fun same => kept.1 (by rw [same])
      rwa [wireStep, if_neg ne]
    | handled h => exact List.mem_append_left _ member
    | closed other => exact member

section Run
variable {platform : Platform} {server : MonitorServer} {log : List Entry} {rule : AlertRule} {host : Bytes}

/-- The last rising edge of a host and a rule that is high. -/
structure LastEdge (platform : Platform) (host : Bytes) (rule : AlertRule) (log earlier : List Entry) (h : Handled)
    (later : List Entry) : Prop where
  split : log = earlier ++ .handled h :: later
  low : level h.before.active_alerts_ (dedupe_key host rule.raw_command) = false
  high : level h.after.active_alerts_ (dedupe_key host rule.raw_command) = true
  raised : alertCount host rule.raw_command h.outputs = 1
  steady : ∀ h', .handled h' ∈ later → level h'.after.active_alerts_ (dedupe_key host rule.raw_command) = true ∧
    alertCount host rule.raw_command h'.outputs = 0

theorem LastEdge.extend {earlier later entries : List Entry} {h : Handled}
    (edge : LastEdge platform host rule log earlier h later)
    (steady : ∀ h', .handled h' ∈ entries → level h'.after.active_alerts_ (dedupe_key host rule.raw_command) = true ∧
      alertCount host rule.raw_command h'.outputs = 0) :
    LastEdge platform host rule (log ++ entries) earlier h (later ++ entries) where
  split := by rw [edge.split, List.append_assoc, List.cons_append]
  low := edge.low
  high := edge.high
  raised := edge.raised
  steady := fun h' member => (List.mem_append.mp member).elim (edge.steady h') (steady h')

/-- Invariant of a run: an entry of the alert map that is true was made true by
a rising edge, and nothing has been broadcast for it since. -/
theorem ServerRun.last_edge (run : ServerRun platform server log) (accepted : Accepted platform rule)
    (active : level server.active_alerts_ (dedupe_key host rule.raw_command) = true) :
    ∃ earlier h later, LastEdge platform host rule log earlier h later := by
  revert active
  refine run.invariant (fun server log =>
    level server.active_alerts_ (dedupe_key host rule.raw_command) = true →
      ∃ earlier h later, LastEdge platform host rule log earlier h later) (fun active => by cases active) ?_
  intro server after log entries previous ih one active
  cases one with
  | @handle _ clock index line outputs handled =>
    have cases_ := Handled.followed_cases host (h := ⟨server, clock, index, line, outputs, after⟩)
      handled accepted (ServerRun.rules_accepted previous)
    have steady (count : alertCount host rule.raw_command outputs = 0) (h' : Handled)
        (member : Entry.handled h' ∈ [Entry.handled ⟨server, clock, index, line, outputs, after⟩]) :
        level h'.after.active_alerts_ (dedupe_key host rule.raw_command) = true ∧
          alertCount host rule.raw_command h'.outputs = 0 := by
      cases List.mem_singleton.mp member
      exact ⟨active, count⟩
    cases follows : Handled.followed platform host rule ⟨server, clock, index, line, outputs, after⟩ with
    | none =>
      rw [follows] at cases_
      obtain ⟨earlier, h, later, edge⟩ := ih (cases_.2.symm.trans active)
      exact ⟨earlier, h, _, edge.extend (steady cases_.1)⟩
    | some metric =>
      rw [follows] at cases_
      have matched : rule_matches rule metric = true := cases_.2.symm.trans active
      cases previously : level server.active_alerts_ (dedupe_key host rule.raw_command) with
      | true =>
        obtain ⟨earlier, h, later, edge⟩ := ih previously
        exact ⟨earlier, h, _, edge.extend (steady (by rw [cases_.1, matched, previously]; rfl))⟩
      | false =>
        refine ⟨log, _, [], rfl, previously, active, ?_, fun _ member => (nomatch member)⟩
        rw [cases_.1, matched, previously]
        rfl
  | accept _ =>
    obtain ⟨earlier, h, later, edge⟩ := ih active
    exact ⟨earlier, h, _, edge.extend (by simp)⟩
  | buffer =>
    obtain ⟨earlier, h, later, edge⟩ := ih active
    exact ⟨earlier, h, _, edge.extend (by simp)⟩
  | disconnect _ =>
    obtain ⟨earlier, h, later, edge⟩ := ih active
    exact ⟨earlier, h, _, edge.extend (by simp)⟩

/-- While the alert map holds true for a host and a registered rule, the run has
a last rising edge for the two, and an open connection has been sent an alert
for them since that edge exactly if it was a dashboard at the edge already. -/
theorem alert_reaches_dashboards_at_edge (run : ServerRun platform server log) (registered : rule ∈ server.alert_rules_)
    (active : server.active_alerts_.lookup (dedupe_key host rule.raw_command) = some true) :
    ∃ earlier h later, LastEdge platform host rule log earlier h later ∧
      ∀ connection ∈ server.clients_,
        (∃ event ∈ wire connection.fd (.handled h :: later), IsAlert host rule.raw_command event) ↔
          connection.fd ∈ h.before.dashboards ∧ .accepted connection.fd ∉ later := by
  have high : level server.active_alerts_ (dedupe_key host rule.raw_command) = true := by rw [level, active]; rfl
  obtain ⟨earlier, h, later, edge⟩ := run.last_edge (run.rules_accepted rule registered) high
  refine ⟨earlier, h, later, edge, fun connection _ => ?_⟩
  have genuine (h' : Handled) (member : .handled h' ∈ log) :
      h'.before.handle_line platform h'.clock h'.index h'.line = .ok (h'.after, h'.outputs) := by
    obtain ⟨-, -, -, -, handled⟩ := run.handled member
    exact handled
  have atEdge : (∃ event ∈ h.outputs.flatMap (Output.linesTo connection.fd), IsAlert host rule.raw_command event) ↔
      connection.fd ∈ h.before.dashboards ∧ alertCount host rule.raw_command h.outputs ≠ 0 :=
    Handled.alert_line_iff (genuine h (by rw [edge.split]; simp))
  rw [edge.raised] at atEdge
  change (∃ event ∈ later.foldl (wireStep connection.fd) (h.outputs.flatMap (Output.linesTo connection.fd)), _) ↔ _
  constructor
  · rintro ⟨event, sent, isAlert⟩
    rcases mem_foldl_wireStep sent with ⟨inLines, kept⟩ | ⟨h', inLater, inLines⟩
    · exact ⟨(atEdge.mp ⟨event, inLines, isAlert⟩).1, kept⟩
    · have handled := genuine h' (by rw [edge.split]; simp [inLater])
      have count := ((Handled.alert_line_iff handled).mp ⟨event, inLines, isAlert⟩).2
      exact absurd (edge.steady h' inLater).2 count
  · rintro ⟨present, kept⟩
    obtain ⟨event, inLines, isAlert⟩ := atEdge.mpr ⟨present, one_ne_zero⟩
    exact ⟨event, mem_foldl_wireStep_of_mem inLines kept, isAlert⟩

/-- A dashboard that is connected when a host crosses the threshold. -/
theorem alert_reaches_dashboards_at_edge_present :
    ∃ platform server log rule, ServerRun platform server log ∧ rule ∈ server.alert_rules_ ∧
      server.active_alerts_.lookup (dedupe_key (ascii "a") rule.raw_command) = some true ∧
      ∃ earlier h later, LastEdge platform (ascii "a") rule log earlier h later ∧
        ∀ connection ∈ server.clients_,
          (∃ event ∈ wire connection.fd (.handled h :: later), IsAlert (ascii "a") rule.raw_command event) ↔
            connection.fd ∈ h.before.dashboards ∧ .accepted connection.fd ∉ later := by
  let platform : Platform := ⟨fun _ => false⟩
  let clock : ℕ → Tm := fun _ => ⟨2024, 1, 2, 3, 4, 5⟩
  let rule : AlertRule := ⟨ascii "/alert CPU>80", ascii "cpu_percent", ascii "CPU", ⟨80, by decide +kernel⟩, 62⟩
  let requests : List Request :=
    [.accept 4 ⟨(127, 0, 0, 1), 50000⟩,
     .line clock 0 (ascii "\x7b\"type\":\"register\",\"role\":\"dashboard\"\x7d"),
     .line clock 0 (ascii "\x7b\"type\":\"command\",\"text\":\"/alert CPU>80\"\x7d"),
     .accept 5 ⟨(127, 0, 0, 1), 50001⟩,
     .line clock 1 (ascii "\x7b\"type\":\"register\",\"role\":\"agent\",\"host\":\"a\"\x7d"),
     .line clock 1 (ascii "\x7b\"type\":\"metrics\",\"cpu_percent\":90.00\x7d")]
  have served : MonitorServer.servesTo platform requests (fun server _ =>
      decide (rule ∈ server.alert_rules_) &&
        decide (server.active_alerts_.lookup (dedupe_key (ascii "a") rule.raw_command) = some true)) = true := by
    decide +kernel
  obtain ⟨server, log, run, tested⟩ := MonitorServer.run_of_servesTo served
  simp only [Bool.and_eq_true, decide_eq_true_eq] at tested
  exact ⟨platform, server, log, rule, run, tested.1, tested.2,
    alert_reaches_dashboards_at_edge run tested.1 tested.2⟩

/-- A dashboard that registers after the edge gets a snapshot and the rules, and no alert. -/
theorem late_dashboard_misses_alert :
    ¬ ∀ platform server log, ServerRun platform server log → ∀ host, ∀ rule ∈ server.alert_rules_,
      server.active_alerts_.lookup (dedupe_key host rule.raw_command) = some true →
        ∀ connection ∈ server.clients_, connection.role = .Dashboard →
          ∃ event ∈ wire connection.fd log, IsAlert host rule.raw_command event := by
  intro seen
  let platform : Platform := ⟨fun _ => false⟩
  let clock : ℕ → Tm := fun _ => ⟨2024, 1, 2, 3, 4, 5⟩
  let rule : AlertRule := ⟨ascii "/alert CPU>80", ascii "cpu_percent", ascii "CPU", ⟨80, by decide +kernel⟩, 62⟩
  let requests : List Request :=
    [.accept 4 ⟨(127, 0, 0, 1), 50000⟩,
     .line clock 0 (ascii "\x7b\"type\":\"command\",\"text\":\"/alert CPU>80\"\x7d"),
     .line clock 0 (ascii "\x7b\"type\":\"register\",\"role\":\"agent\",\"host\":\"a\"\x7d"),
     .line clock 0 (ascii "\x7b\"type\":\"metrics\",\"cpu_percent\":90.00\x7d"),
     .accept 5 ⟨(127, 0, 0, 1), 50001⟩,
     .line clock 1 (ascii "\x7b\"type\":\"register\",\"role\":\"dashboard\"\x7d")]
  have served : MonitorServer.servesTo platform requests (fun server log =>
      decide (rule ∈ server.alert_rules_) &&
        (decide (server.active_alerts_.lookup (dedupe_key (ascii "a") rule.raw_command) = some true) &&
          server.clients_.any fun connection => decide (connection.role = .Dashboard) &&
            (wire connection.fd log).all fun event => !event.isAlert)) = true := by decide +kernel
  obtain ⟨server, log, run, tested⟩ := MonitorServer.run_of_servesTo served
  simp only [Bool.and_eq_true, decide_eq_true_eq, List.any_eq_true, List.all_eq_true] at tested
  obtain ⟨registered, active, connection, member, role, noAlert⟩ := tested
  obtain ⟨event, sent, alert, rfl, -⟩ :=
    seen platform server log run (ascii "a") rule registered active connection member role
  exact absurd (noAlert _ sent) (by simp [ServerEvent.isAlert])

end Run

end SysNetMon
