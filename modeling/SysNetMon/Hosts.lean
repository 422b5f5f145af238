import Mathlib.Data.Finmap
import SysNetMon.Ownership
import SysNetMon.Transition

/-!
The hosts do not affect one another: what the server keeps and raises for a host
is what it would for that host alone.
-/

namespace SysNetMon
open Bytes RisingEdge Component

/-- An alert without its clock reading. -/
def AlertEvent.untimed (alert : AlertEvent) : AlertEvent := { alert with timestamp := [] }

/-- The alerts for a host among the outputs, without their clock readings. -/
def alertsFor (host : Bytes) (outputs : List Output) : List AlertEvent :=
  outputs.filterMap fun output =>
    match output with
    | .broadcast _ (.alert alert) => if alert.host = host then some alert.untimed else none
    | _ => none

/-- The metric of the host that the server accepts with a line. -/
def Entry.acceptedFor (platform : Platform) (host : Bytes) (entry : Entry) : Option MetricSnapshot :=
  (entry.metric? platform).filter fun metric => metric.host = host

def Entry.alertsFor (host : Bytes) (entry : Entry) : List AlertEvent :=
  (entry.handled?.map fun h => SysNetMon.alertsFor host h.outputs).getD []

/-- A server that hears of one host only. -/
def hear (host : Bytes) (server : MonitorServer) (metric : MetricSnapshot) : MonitorServer × List AlertEvent :=
  let stored := server.store (fun _ => ⟨1970, 1, 1, 0, 0, 0⟩) metric
  (stored.1, alertsFor host stored.2)

/-- Two servers with the same rules and the same records for a host. -/
structure SameFor (platform : Platform) (host : Bytes) (server other : MonitorServer) : Prop where
  rules : server.alert_rules_ = other.alert_rules_
  accepted : ∀ rule ∈ server.alert_rules_, Accepted platform rule
  latest : server.latest_metrics_.lookup host = other.latest_metrics_.lookup host
  active : ∀ rule ∈ server.alert_rules_, server.active_alerts_.lookup (dedupe_key host rule.raw_command) =
    other.active_alerts_.lookup (dedupe_key host rule.raw_command)

theorem untimed_alertOf (now now' : Tm) (metric : MetricSnapshot) (rule : AlertRule) :
    (alertOf now metric rule).untimed = (alertOf now' metric rule).untimed := by
  simp only [AlertEvent.untimed, alertOf]

/-- Maps that agree on some keys still do after `evaluate_rules`, and it raises
the same alerts on both, if these keys are among them that it reads. -/
theorem evaluate_rules_agree (metric : MetricSnapshot) {p : Bytes → Prop} (clock clock' : ℕ → Tm)
    {rules : List AlertRule} (read : ∀ rule ∈ rules, p (dedupe_key metric.host rule.raw_command))
    {active active' : AList fun _ : Bytes => Bool} (agree : ∀ key, p key → active.lookup key = active'.lookup key) :
    (∀ key, p key → (evaluate_rules metric clock rules active).1.lookup key =
        (evaluate_rules metric clock' rules active').1.lookup key) ∧
      (evaluate_rules metric clock rules active).2.map AlertEvent.untimed =
        (evaluate_rules metric clock' rules active').2.map AlertEvent.untimed := by
  induction rules generalizing clock clock' active active' with
  | nil => exact ⟨agree, rfl⟩
  | cons rule rules ih =>
    rw [List.forall_mem_cons] at read
    have inserted (key : Bytes) (inP : p key) :
        (active.insert (dedupe_key metric.host rule.raw_command) (rule_matches rule metric)).lookup key =
          (active'.insert (dedupe_key metric.host rule.raw_command) (rule_matches rule metric)).lookup key := by
      by_cases here : key = dedupe_key metric.host rule.raw_command
      · rw [here, AList.lookup_insert, AList.lookup_insert]
      · rw [AList.lookup_insert_ne here, AList.lookup_insert_ne here, agree key inP]
    obtain ⟨memory, raised⟩ := ih (fun i => clock (i + 1)) (fun i => clock' (i + 1)) read.2 inserted
    refine ⟨memory, ?_⟩
    rw [evaluate_rules, evaluate_rules, agree _ read.1, List.map_append, List.map_append, raised]
    refine congrArg (· ++ _) ?_
    split
    · rw [List.map_singleton, List.map_singleton, untimed_alertOf (clock 0) (clock' 0)]
    · rfl

/-- A stored metric raises alerts for its own host only. -/
theorem alertsFor_store (host : Bytes) (server : MonitorServer) (clock : ℕ → Tm) (metric : MetricSnapshot) :
    alertsFor host (server.store clock metric).2 =
      if metric.host = host then
        (evaluate_rules metric clock server.alert_rules_ server.active_alerts_).2.map AlertEvent.untimed
      else [] := by
  have hosts (alert : AlertEvent)
      (member : alert ∈ (evaluate_rules metric clock server.alert_rules_ server.active_alerts_).2) :
      alert.host = metric.host := by
    obtain ⟨rule, -, -, now, rfl⟩ := evaluate_rules_sound member
    rfl
  simp only [alertsFor, MonitorServer.store, MonitorServer.broadcast_to_dashboards, List.filterMap_cons,
    List.filterMap_map]
  split
  · rename_i own
    rw [← List.filterMap_eq_map]
    exact List.filterMap_congr fun alert member => if_pos ((hosts alert member).trans own)
  · rename_i other
    exact List.filterMap_eq_nil_iff.mpr fun alert member => if_neg (hosts alert member ▸ other)

section Step
variable {platform : Platform} {host : Bytes} {server other : MonitorServer}

/-- A metric of the host is stored on both. -/
theorem SameFor.own (same : SameFor platform host server other) (clock : ℕ → Tm) {metric : MetricSnapshot}
    (own : metric.host = host) :
    SameFor platform host (server.store clock metric).1 (hear host other metric).1 ∧
      alertsFor host (server.store clock metric).2 = (hear host other metric).2 := by
  subst own
  obtain ⟨memory, raised⟩ := evaluate_rules_agree metric
    (p := fun key => ∃ rule ∈ server.alert_rules_, key = dedupe_key metric.host rule.raw_command) clock
    (fun _ => ⟨1970, 1, 1, 0, 0, 0⟩) (fun rule inRules => ⟨rule, inRules, rfl⟩)
    (fun key ⟨rule, inRules, is⟩ => is ▸ same.active rule inRules)
  constructor
  · exact {
      rules := same.rules
      accepted := same.accepted
      latest := by simp only [hear, MonitorServer.store, AList.lookup_insert]
      active := fun rule inRules => by
        simp only [hear, MonitorServer.store, ← same.rules]
        exact memory _ ⟨rule, inRules, rfl⟩ }
  · rw [hear, alertsFor_store, alertsFor_store, if_pos rfl, if_pos rfl, ← same.rules, raised]

/-- A metric of another host changes nothing for the host. -/
theorem SameFor.foreign (same : SameFor platform host server other) (clock : ℕ → Tm) {metric : MetricSnapshot}
    (foreign : metric.host ≠ host) :
    SameFor platform host (server.store clock metric).1 other ∧ alertsFor host (server.store clock metric).2 = [] := by
  obtain ⟨hosts, -⟩ := @lookup_store platform server clock metric same.accepted
  obtain ⟨latest, active⟩ := hosts host (Ne.symm foreign)
  constructor
  · exact {
      rules := same.rules
      accepted := same.accepted
      latest := latest.trans same.latest
      active := fun rule inRules => (active rule inRules).trans (same.active rule inRules) }
  · rw [alertsFor_store, if_neg foreign]

/-- As far as the host goes, a step that keeps the rules is simulated by the
server that hears of this host only. -/
theorem SameFor.step {after : MonitorServer} {entries : List Entry} (same : SameFor platform host server other)
    (one : ServerStep platform server entries after) (rules : after.alert_rules_ = server.alert_rules_) :
    SameFor platform host after (feed (hear host) other (entries.filterMap (Entry.acceptedFor platform host))).1 ∧
      entries.flatMap (Entry.alertsFor host) =
        (feed (hear host) other (entries.filterMap (Entry.acceptedFor platform host))).2 := by
  have unchanged {after : MonitorServer} (rules : after.alert_rules_ = server.alert_rules_)
      (latest : after.latest_metrics_ = server.latest_metrics_) (active : after.active_alerts_ = server.active_alerts_) :
      SameFor platform host after other := by
    constructor
    · rw [rules, same.rules]
    · exact rules ▸ same.accepted
    · rw [latest, same.latest]
    · exact rules ▸ active ▸ same.active
  cases one with
  | @handle _ clock index line outputs handled =>
    have input (found : Option MetricSnapshot)
        (is : Entry.acceptedFor platform host (.handled ⟨server, clock, index, line, outputs, after⟩) = found) :
        [Entry.handled ⟨server, clock, index, line, outputs, after⟩].filterMap (Entry.acceptedFor platform host) =
          found.toList := by
      rw [List.filterMap_cons, is]
      cases found <;> rfl
    have output : [Entry.handled ⟨server, clock, index, line, outputs, after⟩].flatMap (Entry.alertsFor host) =
        alertsFor host outputs := List.append_nil _
    rw [output]
    rcases Handled.accepted_cases (h := ⟨server, clock, index, line, outputs, after⟩) handled with
      ⟨metric, accepted, stored⟩ | ⟨accepted, latest, active, quiet⟩
    · obtain ⟨afterEq, outputsEq⟩ : after = (server.store (fun i => clock (i + 1)) metric).1 ∧
          outputs = (server.store (fun i => clock (i + 1)) metric).2 := Prod.mk.inj stored
      by_cases own : metric.host = host
      · rw [input (some metric) (by simp [Entry.acceptedFor, Entry.metric?, Entry.handled?, accepted, own]),
          Option.toList_some, feed, afterEq, outputsEq]
        obtain ⟨state, raised⟩ := same.own (fun i => clock (i + 1)) own
        exact ⟨state, raised.trans (List.append_nil _).symm⟩
      · rw [input none (by simp [Entry.acceptedFor, Entry.metric?, Entry.handled?, accepted, own]), afterEq, outputsEq]
        exact same.foreign (fun i => clock (i + 1)) own
    · rw [input none (by simp [Entry.acceptedFor, Entry.metric?, Entry.handled?, accepted])]
      refine ⟨unchanged rules latest active, List.filterMap_eq_nil_iff.mpr fun output member => ?_⟩
      split
      · rename_i fds alert
        exact absurd rfl ((quiet fds _ member).2 alert)
      · rfl
  | accept _ => exact ⟨unchanged rfl rfl rfl, rfl⟩
  | buffer => exact ⟨unchanged rfl rfl rfl, rfl⟩
  | disconnect _ => exact ⟨unchanged rfl rfl rfl, rfl⟩

end Step

/-- A run at whose end the rules are those of its start kept them all the time. -/
theorem rules_kept {platform : Platform} {server after : MonitorServer} {log : List Entry}
    (run : LoggedRun server (ServerStep platform) after log) (rules : after.alert_rules_ = server.alert_rules_) :
    LoggedRun server (fun s entries s' => ServerStep platform s entries s' ∧ s'.alert_rules_ = s.alert_rules_)
      after log := by
  induction run with
  | start => exact .start
  | @next middle after log entries previous one ih =>
    have last : middle.alert_rules_ <+: server.alert_rules_ := rules ▸ rules_grow (.next .start one)
    have same : middle.alert_rules_ = server.alert_rules_ := last.eq_of_length_le (rules_grow previous).length_le
    exact .next (ih same) ⟨one, rules.trans same.symm⟩

/-- The metrics of the host that are accepted along a run, in order. -/
def acceptedFor (platform : Platform) (host : Bytes) (log : List Entry) : List MetricSnapshot :=
  log.filterMap (Entry.acceptedFor platform host)

/-- The alerts for the host along a run, in order and without their clock readings. -/
def raisedFor (host : Bytes) (log : List Entry) : List AlertEvent := log.flatMap (Entry.alertsFor host)

section Runs
variable {platform : Platform} {server after : MonitorServer} {log : List Entry}

/-- What a run does for a host is what the server does that hears of this host only. -/
theorem same_for_host (accepted : ∀ rule ∈ server.alert_rules_, Accepted platform rule) (host : Bytes)
    (run : LoggedRun server (ServerStep platform) after log) (rules : after.alert_rules_ = server.alert_rules_) :
    SameFor platform host after (feed (hear host) server (acceptedFor platform host log)).1 ∧
      raisedFor host log = (feed (hear host) server (acceptedFor platform host log)).2 :=
  simulated (fun same one => same.step one.1 one.2) ⟨rfl, accepted, rfl, fun _ _ => rfl⟩ (rules_kept run rules)

/-- Keys that belong to no host and rule are never touched. -/
theorem foreign_keys_kept (accepted : ∀ rule ∈ server.alert_rules_, Accepted platform rule) {key : Bytes}
    (foreign : ∀ host, ∀ rule ∈ server.alert_rules_, key ≠ dedupe_key host rule.raw_command)
    (run : LoggedRun server (ServerStep platform) after log) (rules : after.alert_rules_ = server.alert_rules_) :
    after.active_alerts_.lookup key = server.active_alerts_.lookup key := by
  have quiet := (rules_kept run rules).state_invariant (fun s => s.alert_rules_ = server.alert_rules_ ∧
    s.active_alerts_.lookup key = server.active_alerts_.lookup key) ⟨rfl, rfl⟩ ?_
  · exact quiet.2
  intro s s' entries ih one
  refine ⟨one.2.trans ih.1, ?_⟩
  cases one.1 with
  | @handle _ clock index line outputs handled =>
    rcases Handled.accepted_cases (h := ⟨s, clock, index, line, outputs, s'⟩) handled with
      ⟨metric, -, stored⟩ | ⟨-, -, active, -⟩
    · have afterEq : s' = (s.store (fun i => clock (i + 1)) metric).1 := congrArg Prod.fst stored
      rw [afterEq, (@lookup_store platform s _ metric (ih.1 ▸ accepted)).2 key (ih.1 ▸ foreign metric.host), ih.2]
    · change s'.active_alerts_ = s.active_alerts_ at active
      rw [active, ih.2]
  | accept _ => exact ih.2
  | buffer => exact ih.2
  | disconnect _ => exact ih.2

end Runs

/-- The snapshot lists the metrics by host, whatever the order they are kept in. -/
theorem ordered_eq_of_toFinmap {latest latest' : AList fun _ : Bytes => MetricSnapshot}
    (same : latest.toFinmap = latest'.toFinmap) : ordered latest = ordered latest' := by
  let byHost : (Σ _ : Bytes, MetricSnapshot) → (Σ _ : Bytes, MetricSnapshot) → Prop := fun a b => a.1 ≤ b.1
  have perm := AList.toFinmap_eq.mp same
  have total : Std.Total byHost := ⟨fun a b => List.le_total a.1 b.1⟩
  have transitive : IsTrans _ byHost := ⟨fun a b c => List.le_trans⟩
  have sorted (entries : List (Σ _ : Bytes, MetricSnapshot)) :
      (entries.insertionSort fun a b => a.1 ≤ b.1).Pairwise byHost :=
    List.pairwise_insertionSort byHost entries
  rw [ordered, ordered]
  refine congrArg (List.map Sigma.snd) (List.Perm.eq_of_pairwise ?_ (sorted _) (sorted _)
    ((List.perm_insertionSort _ _).trans (perm.trans (List.perm_insertionSort _ _).symm)))
  intro ⟨host, metric⟩ ⟨host', metric'⟩ member member' below above
  obtain rfl : host = host' := List.le_antisymm below above
  have found := AList.mem_lookup_iff.mpr ((List.mem_insertionSort _).mp member)
  have found' := AList.mem_lookup_iff.mpr ((List.mem_insertionSort _).mp member')
  rw [AList.perm_lookup perm, found', Option.mem_def, Option.some.injEq] at found
  rw [found]

/-- Two runs from one reachable state that keep its rules and accept the same
metrics of each host in the same order, in whatever order of the hosts: they end
with the same metrics and the same alert map, with the same text of a snapshot,
and have raised the same alerts for each host, up to clock readings. -/
theorem hosts_independent {platform : Platform} {server after after' : MonitorServer} {log₀ log log' : List Entry}
    (reached : ServerRun platform server log₀) (run : LoggedRun server (ServerStep platform) after log)
    (run' : LoggedRun server (ServerStep platform) after' log') (rules : after.alert_rules_ = server.alert_rules_)
    (rules' : after'.alert_rules_ = server.alert_rules_)
    (merged : ∀ host, acceptedFor platform host log = acceptedFor platform host log') :
    after.latest_metrics_.toFinmap = after'.latest_metrics_.toFinmap ∧
      after.active_alerts_.toFinmap = after'.active_alerts_.toFinmap ∧
      (∀ now, snapshot_event_to_json now after.latest_metrics_ = snapshot_event_to_json now after'.latest_metrics_) ∧
      ∀ host, raisedFor host log = raisedFor host log' := by
  have accepted := ServerRun.rules_accepted reached
  have same (host : Bytes) := same_for_host accepted host run rules
  have same' (host : Bytes) := same_for_host accepted host run' rules'
  simp only [← merged] at same'
  have latest : after.latest_metrics_.toFinmap = after'.latest_metrics_.toFinmap :=
    Finmap.ext_lookup fun host => (same host).1.latest.trans (same' host).1.latest.symm
  refine ⟨latest, Finmap.ext_lookup fun key => ?_, fun now => ?_, fun host => (same host).2.trans (same' host).2.symm⟩
  · change after.active_alerts_.lookup key = after'.active_alerts_.lookup key
    by_cases owned : ∃ host, ∃ rule ∈ server.alert_rules_, key = dedupe_key host rule.raw_command
    · obtain ⟨host, rule, inRules, rfl⟩ := owned
      rw [(same host).1.active rule (rules ▸ inRules), (same' host).1.active rule (rules' ▸ inRules)]
    · have foreign : ∀ host, ∀ rule ∈ server.alert_rules_, key ≠ dedupe_key host rule.raw_command :=
        fun host rule inRules is => owned ⟨host, rule, inRules, is⟩
      rw [foreign_keys_kept accepted foreign run rules, foreign_keys_kept accepted foreign run' rules']
  · rw [snapshot_event_to_json, snapshot_event_to_json, ordered_eq_of_toFinmap latest]

/-- Two agents that report in either order, under a rule that both cross. -/
theorem hosts_independent_swapped :
    ∃ platform server after after' log₀ log log', ServerRun platform server log₀ ∧
      LoggedRun server (ServerStep platform) after log ∧ LoggedRun server (ServerStep platform) after' log' ∧
      after.latest_metrics_.keys = after'.latest_metrics_.keys.reverse ∧
      after.latest_metrics_.toFinmap = after'.latest_metrics_.toFinmap ∧
      after.active_alerts_.toFinmap = after'.active_alerts_.toFinmap ∧
      (∀ now, snapshot_event_to_json now after.latest_metrics_ = snapshot_event_to_json now after'.latest_metrics_) ∧
      ∀ host, raisedFor host log = raisedFor host log' := by
  let platform : Platform := ⟨fun _ => false⟩
  let clock : ℕ → Tm := fun _ => ⟨2024, 1, 2, 3, 4, 5⟩
  let stamp := ascii "\",\"timestamp\":\"2024-01-02T03:04:05Z\",\"cpu_percent\":90\x7d"
  let first : Request := .line clock 0 (ascii "\x7b\"type\":\"metrics\",\"host\":\"a" ++ stamp)
  let second : Request := .line clock 1 (ascii "\x7b\"type\":\"metrics\",\"host\":\"b" ++ stamp)
  let requests : List Request :=
    [.accept 4 ⟨(127, 0, 0, 1), 50000⟩,
     .line clock 0 (ascii "\x7b\"type\":\"command\",\"text\":\"/alert CPU>80%\"\x7d"),
     .line clock 0 (ascii "\x7b\"type\":\"register\",\"role\":\"agent\"\x7d"),
     .accept 5 ⟨(127, 0, 0, 1), 50001⟩,
     .line clock 1 (ascii "\x7b\"type\":\"register\",\"role\":\"agent\"\x7d")]
  let Merged (log log' : List Entry) : Prop := ∃ a ∈ log.filterMap (Entry.metric? platform),
    ∃ b ∈ log.filterMap (Entry.metric? platform), a.host ≠ b.host ∧
      log.filterMap (Entry.metric? platform) = [a, b] ∧ log'.filterMap (Entry.metric? platform) = [b, a]
  have served : MonitorServer.servesTo platform requests (fun server _ =>
      (server.serve platform [first, second]).toOption.any fun one =>
        (server.serve platform [second, first]).toOption.any fun two =>
          decide (one.1.alert_rules_ = server.alert_rules_) && decide (two.1.alert_rules_ = server.alert_rules_) &&
            decide (one.1.latest_metrics_.keys = two.1.latest_metrics_.keys.reverse) &&
              decide (Merged one.2 two.2)) = true := by decide +kernel
  obtain ⟨server, log₀, reached, tested⟩ := MonitorServer.run_of_servesTo served
  simp only [Option.any_eq_true, Bool.and_eq_true, decide_eq_true_eq] at tested
  obtain ⟨one, served₁, two, served₂, ⟨⟨rules₁, rules₂⟩, keys⟩, a, -, b, -, apart, merged₁, merged₂⟩ := tested
  have runs {requests : List Request} {reached : MonitorServer × List Entry}
      (served : (server.serve platform requests).toOption = some reached) :
      LoggedRun server (ServerStep platform) reached.1 reached.2 :=
    MonitorServer.serve_run .start (eq_ok_of_toOption served)
  refine ⟨platform, server, one.1, two.1, log₀, one.2, two.2, reached, runs served₁, runs served₂, keys,
    hosts_independent reached (runs served₁) (runs served₂) rules₁ rules₂ fun host => ?_⟩
  have filtered (log : List Entry) : acceptedFor platform host log =
      (log.filterMap (Entry.metric? platform)).filter fun metric => metric.host = host :=
    List.filter_filterMap.symm
  rw [filtered, filtered, merged₁, merged₂]
  by_cases isA : a.host = host
  · have notB : b.host ≠ host := fun isB => apart (isA.trans isB.symm)
    simp [isA, notB]
  · simp [List.filter_cons, isA]

end SysNetMon
