import SysNetMon.Ownership

/-!
The events that the server only broadcasts, on the connections that stay
registered as dashboards over a part of a run.
-/

namespace SysNetMon
open Bytes

/-- The metric, alert and chat events that an output broadcasts. -/
def Output.live : Output → List ServerEvent
  | send_line _ _ => []
  | broadcast _ event => [event].filter ServerEvent.live

/-- The metric, alert and chat events broadcast while a line is handled. -/
def Entry.live (entry : Entry) : List ServerEvent := (entry.handled?.map fun h => h.outputs.flatMap Output.live).getD []

/-- The lines put on the connection `fd` while a line is handled. -/
def Entry.linesTo (fd : ℕ) (entry : Entry) : List ServerEvent :=
  (entry.handled?.map fun h => h.outputs.flatMap (Output.linesTo fd)).getD []

/-- The steps of the server that end in a state with the property. -/
def During (p : MonitorServer → Prop) (platform : Platform) (server : MonitorServer) (entries : List Entry)
    (after : MonitorServer) : Prop :=
  ServerStep platform server entries after ∧ p after

/-- The metric is about the host of the alert, and its value makes a rule of the
list match, in the words of the alert. -/
def Causes (rules : List AlertRule) (metric : MetricSnapshot) (alert : AlertEvent) : Prop :=
  metric.host = alert.host ∧ ∃ rule ∈ rules, rule_matches rule metric = true ∧ ∃ now, alert = alertOf now metric rule

/-- Every alert comes after the metric that caused it, with only alerts in between. -/
def InCausalOrder (rules : List AlertRule) (events : List ServerEvent) : Prop :=
  ∀ before alert later, events = before ++ .alert alert :: later →
    ∃ earlier metric, ∃ alerts : List AlertEvent,
      before = earlier ++ .metric metric :: alerts.map .alert ∧ Causes rules metric alert

theorem InCausalOrder.append {rules : List AlertRule} {first second : List ServerEvent}
    (inFirst : InCausalOrder rules first) (inSecond : InCausalOrder rules second) :
    InCausalOrder rules (first ++ second) := by
  intro before alert later split
  rcases List.append_eq_append_iff.mp split with ⟨middle, rfl, rest⟩ | ⟨middle, rfl, rest⟩
  · obtain ⟨earlier, metric, alerts, rfl, causes⟩ := inSecond middle alert later rest
    exact ⟨first ++ earlier, metric, alerts, by rw [List.append_assoc], causes⟩
  · cases middle with
    | nil =>
      obtain ⟨earlier, metric, alerts, nothing, -⟩ := inSecond [] alert later rest.symm
      simp at nothing
    | cons event middle =>
      rw [List.cons_append, List.cons.injEq] at rest
      exact inFirst before alert middle (by rw [rest.1])

/-- Events without an alert. -/
theorem inCausalOrder_of_quiet {rules : List AlertRule} {events : List ServerEvent}
    (quiet : ∀ alert, .alert alert ∉ events) : InCausalOrder rules events := by
  intro before alert later split
  exact absurd (split ▸ List.mem_append_right _ List.mem_cons_self) (quiet alert)

/-- A metric with the alerts that it causes. -/
theorem inCausalOrder_metric {rules : List AlertRule} {metric : MetricSnapshot} {alerts : List AlertEvent}
    (causes : ∀ alert ∈ alerts, Causes rules metric alert) :
    InCausalOrder rules (.metric metric :: alerts.map .alert) := by
  intro before alert later split
  cases before with
  | nil => simp at split
  | cons first before =>
    rw [List.cons_append, List.cons.injEq, List.map_eq_append_iff] at split
    obtain ⟨rfl, earlier, rest, rfl, rfl, others⟩ := split
    obtain ⟨alert', rest', rfl, is, -⟩ := List.map_eq_cons_iff.mp others
    cases is
    exact ⟨[], metric, earlier, rfl, causes alert (by simp)⟩

theorem InCausalOrder.mono {rules more : List AlertRule} {events : List ServerEvent}
    (ordered : InCausalOrder rules events) (sub : rules ⊆ more) : InCausalOrder more events := by
  intro before alert later split
  obtain ⟨earlier, metric, alerts, shape, host, rule, inRules, matched⟩ := ordered before alert later split
  exact ⟨earlier, metric, alerts, shape, host, rule, sub inRules, matched⟩

theorem MonitorServer.mem_dashboards {server : MonitorServer} {fd : ℕ} :
    fd ∈ server.dashboards ↔ ∃ client ∈ server.clients_, client.role = .Dashboard ∧ client.fd = fd := by
  simp only [dashboards, List.mem_map, List.mem_filter, decide_eq_true_eq, and_assoc]

section Handling
variable {platform : Platform} {server after : MonitorServer} {clock : ℕ → Tm} {index : ℕ}
  {client : ClientConnection} {line : Bytes} {outputs : List Output}

/-- On a connection in the dashboard role the live events are those that are broadcast. -/
theorem Handling.live_lines (handling : Handling platform server clock index client line after outputs)
    (distinct : (server.clients_.map ClientConnection.fd).Nodup) {fd : ℕ} (registered : fd ∈ server.dashboards) :
    (outputs.flatMap (Output.linesTo fd)).filter ServerEvent.live = outputs.flatMap Output.live := by
  obtain ⟨connection, member, role, rfl⟩ := MonitorServer.mem_dashboards.mp registered
  rw [List.filter_flatMap]
  refine List.flatMap_congr fun output inOutputs => ?_
  rcases handling.output_cases output inOutputs with ⟨event, rfl⟩ | ⟨target, event, rfl, plain⟩
  · rw [MonitorServer.linesTo_broadcast distinct member, if_pos role]
    rfl
  · rw [Output.live, Output.linesTo]
    split <;> simp [plain]

/-- The alerts of one line come after the metric that raised them. -/
theorem Handling.inCausalOrder (handling : Handling platform server clock index client line after outputs) :
    InCausalOrder server.alert_rules_ (outputs.flatMap Output.live) := by
  cases handling with
  | @store metric is role read =>
    have live : (server.store (fun i => clock (i + 1)) metric).2.flatMap Output.live = .metric metric ::
        (evaluate_rules metric (fun i => clock (i + 1)) server.alert_rules_ server.active_alerts_).2.map .alert := by
      simp only [MonitorServer.store, List.flatMap_cons, List.flatMap_map]
      exact congrArg (ServerEvent.metric metric :: ·) List.map_eq_flatMap.symm
    rw [live]
    refine inCausalOrder_metric fun alert raised => ?_
    obtain ⟨rule, inRules, matched, now, rfl⟩ := evaluate_rules_sound raised
    exact ⟨rfl, rule, inRules, matched, now, rfl⟩
  | register is =>
    refine inCausalOrder_of_quiet fun alert member => ?_
    simp only [MonitorServer.register] at member
    split at member <;> simp [Output.live] at member
  | _ =>
    refine inCausalOrder_of_quiet fun alert member => ?_
    simp [Output.live, MonitorServer.broadcast_to_dashboards, MonitorServer.chat] at member

end Handling

section Interval
variable {platform : Platform} {start after : MonitorServer} {log₀ interval : List Entry} {p : MonitorServer → Prop}

theorem During.run (reached : ServerRun platform start log₀)
    (during : LoggedRun start (During p platform) after interval) : ServerRun platform after (log₀ ++ interval) := by
  induction during with
  | start => simpa using reached
  | next _ one ih =>
    rw [← List.append_assoc]
    exact .next ih one.1

/-- While a connection is registered as a dashboard, its live events are those
that are broadcast, and nothing is lost of what it was sent before. -/
theorem During.live_lines (reached : ServerRun platform start log₀) (initial : p start) {fd : ℕ}
    (registered : ∀ server, p server → fd ∈ server.dashboards)
    (during : LoggedRun start (During p platform) after interval) :
    wire fd (log₀ ++ interval) = wire fd log₀ ++ interval.flatMap (Entry.linesTo fd) ∧
      (interval.flatMap (Entry.linesTo fd)).filter ServerEvent.live = interval.flatMap Entry.live := by
  suffices whole : p after ∧ wire fd (log₀ ++ interval) = wire fd log₀ ++ interval.flatMap (Entry.linesTo fd) ∧
      (interval.flatMap (Entry.linesTo fd)).filter ServerEvent.live = interval.flatMap Entry.live from whole.2
  induction during with
  | start => exact ⟨initial, by simp⟩
  | @next server after interval entries previous one ih =>
    obtain ⟨holds, sent, live⟩ := ih
    obtain ⟨step, holds'⟩ := one
    refine ⟨holds', ?_⟩
    rw [← List.append_assoc, List.flatMap_append, List.flatMap_append, List.filter_append, live]
    cases step with
    | @accept other peer fresh =>
      obtain ⟨connection, member, -, rfl⟩ := MonitorServer.mem_dashboards.mp (registered server holds)
      have ne : other ≠ connection.fd := by
        rintro rfl
        exact fresh (List.mem_map_of_mem member)
      rw [wire_accepted_ne ne, sent]
      simp [Entry.linesTo, Entry.live, Entry.handled?]
    | buffer => simp [sent]
    | @handle _ clock index line outputs handled =>
      obtain ⟨client, atIndex, handling⟩ := MonitorServer.handle_line_cases handled
      have distinct := ServerRun.fds_nodup (During.run reached previous)
      have lines : [Entry.handled ⟨server, clock, index, line, outputs, after⟩].flatMap (Entry.linesTo fd) =
          outputs.flatMap (Output.linesTo fd) := List.append_nil _
      have broadcasts : [Entry.handled ⟨server, clock, index, line, outputs, after⟩].flatMap Entry.live =
          outputs.flatMap Output.live := List.append_nil _
      rw [wire_handled, sent, lines, broadcasts, handling.live_lines distinct (registered server holds),
        List.append_assoc]
      exact ⟨rfl, rfl⟩
    | disconnect _ =>
      rw [wire_closed, sent]
      simp [Entry.linesTo, Entry.live, Entry.handled?]

/-- The live events of an interval are in causal order, for the rules at its end. -/
theorem During.inCausalOrder (during : LoggedRun start (During p platform) after interval) :
    InCausalOrder after.alert_rules_ (interval.flatMap Entry.live) := by
  refine during.invariant (fun server interval => InCausalOrder server.alert_rules_ (interval.flatMap Entry.live))
    (inCausalOrder_of_quiet (by simp)) ?_
  intro server after interval entries _ ordered one
  have grown : server.alert_rules_ ⊆ after.alert_rules_ := (rules_grow (.next .start one.1)).subset
  rw [List.flatMap_append]
  refine (ordered.mono grown).append ?_
  cases one.1 with
  | handle handled =>
    obtain ⟨client, -, handling⟩ := MonitorServer.handle_line_cases handled
    rw [List.flatMap_singleton]
    exact handling.inCausalOrder.mono grown
  | _ => exact inCausalOrder_of_quiet (by simp [Entry.live, Entry.handled?])

/-- Over a part of a run in which two connections are registered as dashboards
all the time, both are sent the metric, alert and chat events that are broadcast,
each once and in this order, and every alert comes after the metric that caused
it, with only alerts in between. -/
theorem dashboards_agree {one two : ℕ} (reached : ServerRun platform start log₀)
    (initial : one ∈ start.dashboards ∧ two ∈ start.dashboards)
    (during : LoggedRun start (During (fun server => one ∈ server.dashboards ∧ two ∈ server.dashboards) platform)
      after interval) :
    (∀ fd, fd = one ∨ fd = two → ∃ sent, wire fd (log₀ ++ interval) = wire fd log₀ ++ sent ∧
      sent.filter ServerEvent.live = interval.flatMap Entry.live) ∧
      InCausalOrder after.alert_rules_ (interval.flatMap Entry.live) := by
  refine ⟨fun fd either => ?_, During.inCausalOrder during⟩
  refine ⟨_, During.live_lines reached initial (fun server both => ?_) during⟩
  exact either.elim (fun is => is ▸ both.1) (fun is => is ▸ both.2)

end Interval

/-- Two dashboards while an agent crosses a threshold and a third connection chats. -/
theorem dashboards_agree_crossing :
    ∃ platform start after log₀ interval, ServerRun platform start log₀ ∧
      LoggedRun start (During (fun server => 4 ∈ server.dashboards ∧ 5 ∈ server.dashboards) platform) after interval ∧
      (interval.flatMap Entry.live).length = 3 ∧
      (∀ fd, fd = 4 ∨ fd = 5 → ∃ sent, wire fd (log₀ ++ interval) = wire fd log₀ ++ sent ∧
        sent.filter ServerEvent.live = interval.flatMap Entry.live) ∧
      InCausalOrder after.alert_rules_ (interval.flatMap Entry.live) := by
  let platform : Platform := ⟨fun _ => false⟩
  let clock : ℕ → Tm := fun _ => ⟨2024, 1, 2, 3, 4, 5⟩
  let Both (server : MonitorServer) : Prop := 4 ∈ server.dashboards ∧ 5 ∈ server.dashboards
  let requests : List Request :=
    [.accept 4 ⟨(127, 0, 0, 1), 50000⟩, .accept 5 ⟨(127, 0, 0, 1), 50001⟩, .accept 6 ⟨(127, 0, 0, 1), 50002⟩,
     .line clock 0 (ascii "\x7b\"type\":\"register\",\"role\":\"dashboard\"\x7d"),
     .line clock 1 (ascii "\x7b\"type\":\"register\",\"role\":\"dashboard\"\x7d"),
     .line clock 0 (ascii "\x7b\"type\":\"command\",\"text\":\"/alert CPU>80%\"\x7d"),
     .line clock 2 (ascii "\x7b\"type\":\"register\",\"role\":\"agent\"\x7d")]
  let first : Request := .line clock 2 (ascii "\x7b\"type\":\"metrics\",\"host\":\"a\",\"cpu_percent\":90\x7d")
  let second : Request := .line clock 2 (ascii "\x7b\"type\":\"chat\",\"from\":\"ana\",\"text\":\"hi\"\x7d")
  have served : MonitorServer.servesTo platform requests (fun start _ => decide (Both start) &&
      (start.serveOne platform first).toOption.any fun one => decide (Both one.1) &&
        (one.1.serveOne platform second).toOption.any fun two => decide (Both two.1) &&
          decide (((one.2 ++ two.2).flatMap Entry.live).length = 3)) = true := by decide +kernel
  obtain ⟨start, log₀, reached, tested⟩ := MonitorServer.run_of_servesTo served
  simp only [Option.any_eq_true, Bool.and_eq_true, decide_eq_true_eq] at tested
  obtain ⟨initial, one, served₁, both₁, two, served₂, both₂, three⟩ := tested
  have during : LoggedRun start (During Both platform) two.1 (one.2 ++ two.2) :=
    .next (.next .start ⟨MonitorServer.serveOne_step (eq_ok_of_toOption served₁), both₁⟩)
      ⟨MonitorServer.serveOne_step (eq_ok_of_toOption served₂), both₂⟩
  exact ⟨platform, start, two.1, log₀, _, reached, during, three, dashboards_agree reached initial during⟩

end SysNetMon
