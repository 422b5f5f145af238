import SysNetMon.AlertCommand
import SysNetMon.RisingEdge
import SysNetMon.Wire

namespace SysNetMon
open Bytes RisingEdge

/-- The key under which the edge of an alert is remembered. -/
def AlertEvent.key (alert : AlertEvent) : Bytes := dedupe_key alert.host alert.rule

/-- What the rules read off a metric: for each rule its key and whether it matches. -/
def readings (metric : MetricSnapshot) (rules : List AlertRule) : List (Bytes × Bool) :=
  rules.map fun rule => (dedupe_key metric.host rule.raw_command, rule_matches rule metric)

/-- `evaluate_rules` is a pass of edge detection over these readings. -/
theorem evaluate_rules_sweep (metric : MetricSnapshot) (clock : ℕ → Tm) (rules : List AlertRule)
    (active : AList fun _ : Bytes => Bool) :
    (evaluate_rules metric clock rules active).1 = (sweep (readings metric rules) active).1 ∧
      (evaluate_rules metric clock rules active).2.map AlertEvent.key =
        (sweep (readings metric rules) active).2 := by
  induction rules generalizing clock active with
  | nil => exact ⟨rfl, rfl⟩
  | cons rule rules ih =>
    obtain ⟨memory, raised⟩ := ih (fun i => clock (i + 1))
      (active.insert (dedupe_key metric.host rule.raw_command) (rule_matches rule metric))
    refine ⟨memory, ?_⟩
    rw [evaluate_rules, List.map_append, raised]
    change _ = (if rule_matches rule metric && !level active (dedupe_key metric.host rule.raw_command) then
      [dedupe_key metric.host rule.raw_command] else []) ++ _
    congr 1
    rw [apply_ite (List.map AlertEvent.key)]
    rfl

/-- Each alert that is raised is about the metric and a rule that matches it. -/
theorem evaluate_rules_sound {metric : MetricSnapshot} {clock : ℕ → Tm} {rules : List AlertRule}
    {active : AList fun _ : Bytes => Bool} {alert : AlertEvent}
    (member : alert ∈ (evaluate_rules metric clock rules active).2) :
    ∃ rule ∈ rules, rule_matches rule metric = true ∧ ∃ now, alert = alertOf now metric rule := by
  induction rules generalizing clock active with
  | nil => cases member
  | cons rule rules ih =>
    rcases List.mem_append.mp member with first | later
    · split at first
      · rename_i rises
        simp only [Bool.and_eq_true] at rises
        exact ⟨rule, List.mem_cons_self, rises.1, clock 0, List.mem_singleton.mp first⟩
      · cases first
    · obtain ⟨other, inRules, matched, raised⟩ := ih later
      exact ⟨other, List.mem_cons_of_mem _ inRules, matched, raised⟩

/-- How many alerts for the host and the rule text the outputs broadcast. -/
def alertCount (host raw_command : Bytes) (outputs : List Output) : ℕ :=
  outputs.countP fun output =>
    match output with
    | .broadcast _ (.alert alert) => decide (alert.host = host ∧ alert.rule = raw_command)
    | _ => false

/-- The metric of `host` accepted with a line while `rule` is registered. -/
def Handled.followed (platform : Platform) (host : Bytes) (rule : AlertRule) (h : Handled) :
    Option MetricSnapshot :=
  (h.accepted platform).filter fun metric => metric.host = host ∧ rule ∈ h.before.alert_rules_

/-- How many alerts for the host and the rule text the outputs send on a connection. -/
def alertsTo (fd : ℕ) (host raw_command : Bytes) (outputs : List Output) : ℕ :=
  (outputs.flatMap (Output.linesTo fd)).countP fun event =>
    match event with
    | .alert alert => decide (alert.host = host ∧ alert.rule = raw_command)
    | _ => false

/-- A handled line broadcasts so many alerts for the host and the rule text: each
connection that is a dashboard at that time is sent as many, any other none. -/
structure Handled.Alerts (h : Handled) (host raw_command : Bytes) (count : ℕ) : Prop where
  broadcast : alertCount host raw_command h.outputs = count
  sent : ∀ fd, alertsTo fd host raw_command h.outputs = if fd ∈ h.before.dashboards then count else 0

/-- The metrics accepted for `host` from the first registration of `rule` on,
each with the line that brought it. -/
def history (platform : Platform) (host : Bytes) (rule : AlertRule) (log : List Entry) :
    List (MetricSnapshot × Handled) :=
  log.filterMap fun entry =>
    match entry with
    | .handled h => (h.followed platform host rule).map fun metric => (metric, h)
    | _ => none

section Step
variable {platform : Platform} (host : Bytes) {rule : AlertRule}

/-- All readings under the key of an accepted rule are readings of that rule. -/
theorem shows_readings (metric : MetricSnapshot) {rules : List AlertRule} (accepted : Accepted platform rule)
    (all : ∀ other ∈ rules, Accepted platform other) :
    Shows (readings metric rules) (dedupe_key metric.host rule.raw_command) (rule_matches rule metric) := by
  intro reading member same
  obtain ⟨other, inRules, rfl⟩ := List.mem_map.mp member
  have raws := (dedupe_key_inj (all other inRules).bar_not_mem accepted.bar_not_mem same).2
  rw [(all other inRules).eq_of_raw_command accepted raws]

theorem dedupe_key_mem_readings (metric : MetricSnapshot) {rules : List AlertRule} (accepted : Accepted platform rule)
    (all : ∀ other ∈ rules, Accepted platform other) :
    dedupe_key host rule.raw_command ∈ (readings metric rules).map Prod.fst ↔ metric.host = host ∧ rule ∈ rules := by
  simp only [readings, List.map_map, List.mem_map, Function.comp_apply]
  constructor
  · rintro ⟨other, inRules, same⟩
    obtain ⟨hosts, raws⟩ := dedupe_key_inj (all other inRules).bar_not_mem accepted.bar_not_mem same
    exact ⟨hosts, (all other inRules).eq_of_raw_command accepted raws ▸ inRules⟩
  · rintro ⟨rfl, inRules⟩
    exact ⟨rule, inRules, rfl⟩

/-- Counting the alerts of a stored metric is counting the keys it raises. -/
theorem alertCount_store {server : MonitorServer} (clock : ℕ → Tm) (metric : MetricSnapshot)
    (accepted : Accepted platform rule) (all : ∀ other ∈ server.alert_rules_, Accepted platform other) :
    alertCount host rule.raw_command (server.store clock metric).2 =
      (sweep (readings metric server.alert_rules_) server.active_alerts_).2.countP
        fun raised => decide (raised = dedupe_key host rule.raw_command) := by
  have counted : alertCount host rule.raw_command (server.store clock metric).2 =
      (evaluate_rules metric clock server.alert_rules_ server.active_alerts_).2.countP
        fun alert => decide (alert.host = host ∧ alert.rule = rule.raw_command) := by
    simp only [alertCount, MonitorServer.store, MonitorServer.broadcast_to_dashboards, List.countP_cons,
      List.countP_map]
    rfl
  rw [counted, ← (evaluate_rules_sweep metric clock _ _).2, List.countP_map]
  refine List.countP_congr fun alert member => ?_
  obtain ⟨other, inRules, -, now, rfl⟩ := evaluate_rules_sound member
  simp only [decide_eq_true_eq, Function.comp_apply]
  constructor
  · rintro ⟨hosts, raws⟩
    rw [AlertEvent.key, hosts, raws]
  · exact dedupe_key_inj (all other inRules).bar_not_mem accepted.bar_not_mem

variable {h : Handled}

/-- What one handled line does to the signal of a host and a rule: a metric that
follows it sets its level and is broadcast once if the level rises; any other
line leaves the level alone and raises nothing for it. -/
theorem Handled.followed_cases (run : h.before.handle_line platform h.clock h.index h.line = .ok (h.after, h.outputs))
    (accepted : Accepted platform rule) (all : ∀ other ∈ h.before.alert_rules_, Accepted platform other) :
    match h.followed platform host rule with
    | some metric =>
      alertCount host rule.raw_command h.outputs =
        (rule_matches rule metric && !level h.before.active_alerts_ (dedupe_key host rule.raw_command)).toNat ∧
      level h.after.active_alerts_ (dedupe_key host rule.raw_command) = rule_matches rule metric
    | none =>
      alertCount host rule.raw_command h.outputs = 0 ∧
      level h.after.active_alerts_ (dedupe_key host rule.raw_command) =
        level h.before.active_alerts_ (dedupe_key host rule.raw_command) := by
  rcases Handled.accepted_cases run with ⟨metric, isAccepted, stored⟩ | ⟨isAccepted, -, active, quiet⟩
  · have afterEq : h.after = (h.before.store (fun i => h.clock (i + 1)) metric).1 := congrArg Prod.fst stored
    have outputsEq : h.outputs = (h.before.store (fun i => h.clock (i + 1)) metric).2 := congrArg Prod.snd stored
    have keyRead := dedupe_key_mem_readings host metric accepted all
    have counted := alertCount_store host (fun i => h.clock (i + 1)) metric accepted all
    rw [← outputsEq] at counted
    have memory : h.after.active_alerts_ =
        (sweep (readings metric h.before.alert_rules_) h.before.active_alerts_).1 := by
      rw [afterEq]
      exact (evaluate_rules_sweep metric _ _ _).1
    by_cases here : metric.host = host ∧ rule ∈ h.before.alert_rules_
    · have isFollowed : h.followed platform host rule = some metric := by
        rw [followed, isAccepted, Option.filter_some_pos (by simpa using here)]
      have shows := shows_readings metric accepted all
      rw [here.1] at shows
      simp only [isFollowed]
      rw [counted, memory, count_sweep shows, level_sweep shows, if_pos (keyRead.mpr here), if_pos (keyRead.mpr here)]
      exact ⟨rfl, rfl⟩
    · have isFollowed : h.followed platform host rule = none := by
        rw [followed, isAccepted, Option.filter_some_neg (by simpa using here)]
      have absent : dedupe_key host rule.raw_command ∉ (readings metric h.before.alert_rules_).map Prod.fst :=
        fun member => here (keyRead.mp member)
      have shows : Shows (readings metric h.before.alert_rules_) (dedupe_key host rule.raw_command) false :=
        fun reading member same => absurd (same ▸ List.mem_map_of_mem member) absent
      simp only [isFollowed]
      rw [counted, memory, count_sweep shows, level_sweep shows, if_neg absent, if_neg absent]
      exact ⟨rfl, rfl⟩
  · have isFollowed : h.followed platform host rule = none := by rw [followed, isAccepted, Option.filter_none]
    simp only [isFollowed]
    refine ⟨List.countP_eq_zero.mpr fun output member => ?_, by rw [active]⟩
    split
    · rename_i fds alert
      exact absurd rfl ((quiet fds _ member).2 alert)
    · simp

end Step

/-- Where alerts are only broadcast, and to different connections, each of these
is sent what is broadcast. -/
theorem alertsTo_eq {fd : ℕ} {fds : List ℕ} {host raw_command : Bytes} {outputs : List Output} (distinct : fds.Nodup)
    (only : ∀ output ∈ outputs, ∀ alert, output.event = .alert alert → output = .broadcast fds (.alert alert)) :
    alertsTo fd host raw_command outputs = if fd ∈ fds then alertCount host raw_command outputs else 0 := by
  induction outputs with
  | nil => simp [alertsTo, alertCount]
  | cons output outputs ih =>
    rw [List.forall_mem_cons] at only
    have rest := ih only.2
    cases isEvent : output.event with
    | alert alert =>
      have sent := Output.linesTo_broadcast distinct fd (.alert alert)
      simp only [only.1 alert isEvent, alertsTo, alertCount, List.flatMap_cons, List.countP_append, List.countP_cons,
        sent] at rest ⊢
      rw [rest]
      split <;> simp [Nat.add_comm]
    | _ =>
      have quiet : alertsTo fd host raw_command (output :: outputs) = alertsTo fd host raw_command outputs := by
        rw [alertsTo, List.flatMap_cons, List.countP_append, List.countP_eq_zero.mpr, Nat.zero_add]
        · rfl
        · intro event sent
          rw [Output.eq_of_mem_linesTo sent, isEvent]
          simp
      have uncounted : alertCount host raw_command (output :: outputs) = alertCount host raw_command outputs := by
        rw [alertCount, List.countP_cons_of_neg]
        · rfl
        · cases output with
          | send_line target event => simp
          | broadcast targets event =>
            cases isEvent
            simp
      rw [quiet, uncounted, rest]

/-- The rules on the list come from accepted commands. -/
theorem ServerRun.rules_accepted {platform : Platform} {server : MonitorServer} {log : List Entry}
    (run : ServerRun platform server log) : ∀ rule ∈ server.alert_rules_, Accepted platform rule := by
  refine run.state_invariant (fun server => ∀ rule ∈ server.alert_rules_, Accepted platform rule)
    (by simp) ?_
  intro server after entries all one
  cases one with
  | handle handled =>
    obtain ⟨client, -, handling⟩ := MonitorServer.handle_line_cases handled
    cases handling with
    | addRule _ parsed =>
      intro rule member
      rcases List.mem_append.mp member with old | new
      · exact all rule old
      · rw [List.mem_singleton.mp new]
        exact ⟨_, parsed⟩
    | _ => exact all
  | _ => exact all

section Run
variable {platform : Platform} {server : MonitorServer} {log : List Entry} {rule : AlertRule}

/-- What a handled line broadcasts for a host and a rule text is sent to each
dashboard and to nobody else. -/
theorem ServerRun.alerts (run : ServerRun platform server log) {h : Handled} (member : .handled h ∈ log)
    (host raw_command : Bytes) : h.Alerts host raw_command (alertCount host raw_command h.outputs) := by
  obtain ⟨earlier, -, -, reached, handled⟩ := run.handled member
  obtain ⟨client, -, handling⟩ := MonitorServer.handle_line_cases handled
  have distinct : h.before.dashboards.Nodup := reached.fds_nodup.sublist ((List.filter_sublist).map _)
  exact ⟨rfl, fun fd => alertsTo_eq distinct fun output member alert => handling.alert_broadcast member⟩

/-- A metric of the history was brought by a line of the log. -/
theorem mem_history {host : Bytes} {metric : MetricSnapshot} {h : Handled}
    (member : (metric, h) ∈ history platform host rule log) : .handled h ∈ log := by
  obtain ⟨entry, inLog, found⟩ := List.mem_filterMap.mp member
  cases entry with
  | handled other =>
    obtain ⟨_, -, same⟩ := Option.map_eq_some_iff.mp found
    cases same
    exact inLog
  | _ => cases found

/-- The invariant of a run: the counts are the rising edges of the levels, and
the map holds the last level. -/
theorem ServerRun.history_invariant (run : ServerRun platform server log) (accepted : Accepted platform rule)
    (host : Bytes) :
    (history platform host rule log).map (fun entry => alertCount host rule.raw_command entry.2.outputs) =
        (rising false ((history platform host rule log).map fun entry => rule_matches rule entry.1)).map Bool.toNat ∧
      level server.active_alerts_ (dedupe_key host rule.raw_command) =
        ((history platform host rule log).map fun entry => rule_matches rule entry.1).getLast?.getD false := by
  refine run.invariant (fun server log =>
      (history platform host rule log).map (fun entry => alertCount host rule.raw_command entry.2.outputs) =
        (rising false ((history platform host rule log).map fun entry => rule_matches rule entry.1)).map Bool.toNat ∧
      level server.active_alerts_ (dedupe_key host rule.raw_command) =
        ((history platform host rule log).map fun entry => rule_matches rule entry.1).getLast?.getD false)
    ⟨rfl, rfl⟩ ?_
  intro server after log entries previous ih one
  simp only [history, List.filterMap_append] at ih ⊢
  cases one with
  | @handle _ clock index line outputs handled =>
    have cases_ := Handled.followed_cases host (h := ⟨server, clock, index, line, outputs, after⟩)
      handled accepted (ServerRun.rules_accepted previous)
    cases follows : Handled.followed platform host rule ⟨server, clock, index, line, outputs, after⟩ with
    | none =>
      rw [follows] at cases_
      simp only [List.filterMap_cons, follows, Option.map_none, List.filterMap_nil, List.append_nil]
      exact ⟨ih.1, cases_.2.trans ih.2⟩
    | some metric =>
      rw [follows] at cases_
      simp only [List.filterMap_cons, follows, Option.map_some, List.filterMap_nil, List.map_append, List.map_cons,
        List.map_nil, rising_concat, List.getLast?_concat, Option.getD_some]
      rw [ih.1, cases_.1, ih.2]
      exact ⟨rfl, cases_.2⟩
  | _ => simpa [MonitorServer.accept_connection, MonitorServer.modifyClient, MonitorServer.disconnect_client] using ih

/-- In every run, for every host and every accepted rule: of the metrics accepted
for the host since the rule was first registered, exactly those that match where
the one before did not are answered by an alert for the two, one to every
dashboard that is connected then; and no other line sends one to anybody. -/
theorem alerts_are_rising_edges (run : ServerRun platform server log) {text : Bytes}
    (parsed : parse_alert_command platform text = .ok (some rule)) (host : Bytes) :
    (∀ i metric (h : Handled), (history platform host rule log)[i]? = some (metric, h) →
      h.Alerts host rule.raw_command (if rule_matches rule metric = true ∧ (i = 0 ∨ ∃ before,
        (history platform host rule log)[i - 1]? = some before ∧ rule_matches rule before.1 = false) then 1 else 0)) ∧
    ∀ h, .handled h ∈ log → h.followed platform host rule = none → h.Alerts host rule.raw_command 0 := by
  constructor
  · intro i metric h atIndex
    have counts := congrArg (fun l => l[i]?) (run.history_invariant ⟨text, parsed⟩ host).1
    simp only [List.getElem?_map, getElem?_rising, atIndex, Option.map_some, Option.some.injEq] at counts
    have alerts := run.alerts (mem_history (List.mem_of_getElem? atIndex)) host rule.raw_command
    rw [counts] at alerts
    convert alerts using 1
    cases i with
    | zero => cases rule_matches rule metric <;> simp
    | succ i =>
      have inside : i < (history platform host rule log).length :=
        Nat.lt_of_succ_lt (List.getElem?_eq_some_iff.mp atIndex).1
      simp only [Nat.add_sub_cancel, Nat.succ_ne_zero, if_false, false_or, List.getElem?_eq_getElem inside,
        Option.map_some, Option.getD_some, Option.some.injEq, exists_eq_left']
      cases rule_matches rule metric <;> cases rule_matches rule (history platform host rule log)[i].1 <;> rfl
  · intro h member ignored
    obtain ⟨earlier, -, -, reached, handled⟩ := run.handled member
    have cases_ := Handled.followed_cases host handled ⟨text, parsed⟩ (ServerRun.rules_accepted reached)
    rw [ignored] at cases_
    have alerts := run.alerts member host rule.raw_command
    rwa [cases_.1] at alerts

/-- A host that crosses the threshold, stays above it and falls below it, with
the rule registered twice and a dashboard that looks on. -/
theorem alerts_are_rising_edges_crossing :
    ∃ platform rule server log, ServerRun platform server log ∧
      (history platform (ascii "a") rule log).map
        (fun entry => alertsTo 5 (ascii "a") rule.raw_command entry.2.outputs) = [1, 0, 0] ∧
      ∀ i metric (h : Handled), (history platform (ascii "a") rule log)[i]? = some (metric, h) →
        h.Alerts (ascii "a") rule.raw_command (if rule_matches rule metric = true ∧ (i = 0 ∨ ∃ before,
          (history platform (ascii "a") rule log)[i - 1]? = some before ∧ rule_matches rule before.1 = false)
          then 1 else 0) := by
  let platform : Platform := ⟨fun _ => false⟩
  let clock : ℕ → Tm := fun _ => ⟨2024, 1, 2, 3, 4, 5⟩
  let rule : AlertRule := ⟨ascii "/alert CPU>80", ascii "cpu_percent", ascii "CPU", ⟨80, by decide +kernel⟩, 62⟩
  have parsed : parse_alert_command platform (ascii "/alert CPU>80") = .ok (some rule) := by decide +kernel
  let requests : List Request :=
    [.accept 4 ⟨(127, 0, 0, 1), 50000⟩,
     .line clock 0 (ascii "\x7b\"type\":\"register\",\"role\":\"agent\",\"host\":\"a\"\x7d"),
     .accept 5 ⟨(127, 0, 0, 1), 50001⟩,
     .line clock 1 (ascii "\x7b\"type\":\"register\",\"role\":\"dashboard\"\x7d"),
     .line clock 1 (ascii "\x7b\"type\":\"command\",\"text\":\"/alert CPU>80\"\x7d"),
     .line clock 1 (ascii "\x7b\"type\":\"command\",\"text\":\"/alert CPU>80\"\x7d"),
     .line clock 0 (ascii "\x7b\"type\":\"metrics\",\"cpu_percent\":90.00\x7d"),
     .line clock 0 (ascii "\x7b\"type\":\"metrics\",\"cpu_percent\":95.50\x7d"),
     .line clock 0 (ascii "\x7b\"type\":\"metrics\",\"cpu_percent\":10.00\x7d")]
  have served : MonitorServer.servesTo platform requests (fun _ log =>
      decide ((history platform (ascii "a") rule log).map
        (fun entry => alertsTo 5 (ascii "a") rule.raw_command entry.2.outputs) = [1, 0, 0])) = true := by decide +kernel
  obtain ⟨server, log, run, counts⟩ := MonitorServer.run_of_servesTo served
  exact ⟨platform, rule, server, log, run, of_decide_eq_true counts, (alerts_are_rising_edges run parsed (ascii "a")).1⟩

end Run

end SysNetMon
