import SysNetMon.Dashboard
import SysNetMon.Wire

namespace SysNetMon
open Bytes Json KeyedMap

/-- Every stored metric was accepted, and stands under its own host. -/
theorem ServerRun.latest_accepted {platform : Platform} {server : MonitorServer} {log : List Entry}
    (run : ServerRun platform server log) :
    ∀ host metric, server.latest_metrics_.lookup host = some metric →
      metric.host = host ∧ ∃ h, .handled h ∈ log ∧ h.accepted platform = some metric := by
  refine run.invariant (fun server log => ∀ host metric, server.latest_metrics_.lookup host = some metric →
      metric.host = host ∧ ∃ h, .handled h ∈ log ∧ h.accepted platform = some metric)
    (fun host metric found => by simp [AList.lookup_empty] at found) ?_
  intro server after log entries _ ih one
  have kept (latest : after.latest_metrics_ = server.latest_metrics_) : ∀ host metric,
      after.latest_metrics_.lookup host = some metric →
        metric.host = host ∧ ∃ h, .handled h ∈ log ++ entries ∧ h.accepted platform = some metric := by
    intro host metric found
    rw [latest] at found
    obtain ⟨own, h, inLog, accepted⟩ := ih host metric found
    exact ⟨own, h, List.mem_append_left _ inLog, accepted⟩
  cases one with
  | @handle _ clock index line outputs handled =>
    rcases Handled.accepted_cases (h := ⟨server, clock, index, line, outputs, after⟩) handled with
      ⟨metric, accepted, stored⟩ | ⟨-, latest, -⟩
    · have afterEq : after = (server.store (fun i => clock (i + 1)) metric).1 := congrArg Prod.fst stored
      intro host other found
      rw [afterEq] at found
      change (server.latest_metrics_.insert metric.host metric).lookup host = some other at found
      by_cases same : host = metric.host
      · rw [same, AList.lookup_insert] at found
        cases found
        exact ⟨same.symm, _, List.mem_append_right _ (List.mem_singleton_self _), accepted⟩
      · rw [AList.lookup_insert_ne same] at found
        obtain ⟨own, h, inLog, earlier⟩ := ih host other found
        exact ⟨own, h, List.mem_append_left _ inLog, earlier⟩
    · exact kept latest
  | accept _ => exact kept rfl
  | buffer => exact kept rfl
  | disconnect _ => exact kept rfl

theorem ServerRun.latest_keyed {platform : Platform} {server : MonitorServer} {log : List Entry}
    (run : ServerRun platform server log) :
    ∀ host metric, server.latest_metrics_.lookup host = some metric → metric.host = host :=
  fun host metric found => (run.latest_accepted host metric found).1

/-- The items of a snapshot are the stored metrics. -/
theorem mem_ordered {latest : AList fun _ : Bytes => MetricSnapshot} (metric : MetricSnapshot) :
    metric ∈ ordered latest ↔ ∃ host, latest.lookup host = some metric := by
  simp only [ordered, List.mem_map, List.mem_insertionSort]
  constructor
  · rintro ⟨entry, member, rfl⟩
    exact ⟨entry.1, AList.mem_lookup_iff.mpr member⟩
  · rintro ⟨host, found⟩
    exact ⟨⟨host, metric⟩, AList.mem_lookup_iff.mp found, rfl⟩

/-- The dashboard's metrics agree with the server's on the hosts of `p`. -/
def Agree (p : Bytes → Prop) (metrics : AList fun _ : Bytes => Json)
    (latest : AList fun _ : Bytes => MetricSnapshot) : Prop :=
  ∀ host, p host → metrics.lookup host = (latest.lookup host).map metricRecord

/-- A snapshot brings the dashboard up to date on every host. -/
theorem agree_snapshot {latest : AList fun _ : Bytes => MetricSnapshot}
    (keyed : ∀ host metric, latest.lookup host = some metric → metric.host = host) (p : Bytes → Prop) (now : Tm)
    (metrics : AList fun _ : Bytes => Json) : Agree p (metricsAfter metrics (.snapshot now latest)) latest :=
  fun host _ => lookup_fill_entries keyed mem_ordered host

/-- A metric event keeps the two in step, unless its host is empty and matters. -/
theorem Agree.metric {p : Bytes → Prop} {metrics : AList fun _ : Bytes => Json}
    {latest : AList fun _ : Bytes => MetricSnapshot} (agree : Agree p metrics latest) {metric : MetricSnapshot}
    (guard : p metric.host → metric.host ≠ []) :
    Agree p (metricsAfter metrics (.metric metric)) (latest.insert metric.host metric) := by
  intro host inP
  rw [metricsAfter]
  by_cases same : host = metric.host
  · subst same
    rw [if_neg (guard inP), AList.lookup_insert, AList.lookup_insert, Option.map_some]
  · rw [AList.lookup_insert_ne same]
    split
    · exact agree host inP
    · rw [AList.lookup_insert_ne same]
      exact agree host inP

/-- Events that carry no metrics. -/
def Neutral (event : ServerEvent) : Prop := ∀ metrics, metricsAfter metrics event = metrics

theorem neutral_lines {outputs : List Output} (neutral : ∀ output ∈ outputs, Neutral output.event) (fd : ℕ) :
    ∀ event ∈ outputs.flatMap (Output.linesTo fd), Neutral event := by
  intro event member
  obtain ⟨output, inOutputs, inLines⟩ := List.mem_flatMap.mp member
  rw [Output.eq_of_mem_linesTo inLines]
  exact neutral output inOutputs

/-- What one handled line means for a connection that is a dashboard after it:
it is sent a snapshot, or the metric that is stored, or nothing about metrics. -/
inductive DashboardLines (platform : Platform) (h : Handled) (connection : ClientConnection) : Prop
  | snapshot {before now rest} :
      h.outputs.flatMap (Output.linesTo connection.fd) = before ++ .snapshot now h.before.latest_metrics_ :: rest →
      (∀ event ∈ rest, Neutral event) → h.after.latest_metrics_ = h.before.latest_metrics_ →
      DashboardLines platform h connection
  | metric {metric rest} : connection ∈ h.before.clients_ →
      h.outputs.flatMap (Output.linesTo connection.fd) = .metric metric :: rest →
      (∀ event ∈ rest, Neutral event) → h.accepted platform = some metric →
      h.after.latest_metrics_ = h.before.latest_metrics_.insert metric.host metric →
      DashboardLines platform h connection
  | neutral : connection ∈ h.before.clients_ →
      (∀ event ∈ h.outputs.flatMap (Output.linesTo connection.fd), Neutral event) →
      h.after.latest_metrics_ = h.before.latest_metrics_ → DashboardLines platform h connection

theorem Handling.dashboard_lines {platform : Platform} {server after : MonitorServer} {clock : ℕ → Tm} {index : ℕ}
    {client : ClientConnection} {line : Bytes} {outputs : List Output}
    (handling : Handling platform server clock index client line after outputs)
    (distinct : (server.clients_.map ClientConnection.fd).Nodup) (atIndex : server.clients_[index]? = some client)
    {connection : ClientConnection} (member : connection ∈ after.clients_) (role : connection.role = .Dashboard) :
    DashboardLines platform ⟨server, clock, index, line, outputs, after⟩ connection := by
  cases handling with
  | register is =>
    rcases MonitorServer.mem_modifyClient member with ⟨other, atOther, rfl⟩ | ⟨i, elsewhere, atI⟩
    · rw [atIndex] at atOther
      cases atOther
      have lines := @MonitorServer.register_lines_self server clock index client line role
      refine @DashboardLines.snapshot _ _ _ [_] _ [.rules server.alert_rules_] lines (fun event inRest => ?_) rfl
      rw [List.mem_singleton.mp inRest]
      exact fun _ => rfl
    · have other := MonitorServer.fd_ne distinct atIndex atI (Ne.symm elsewhere)
      have lines := @MonitorServer.register_lines_ne server clock index client line _ other
      refine .neutral (List.mem_of_getElem? atI) (fun event inLines => ?_) rfl
      rw [lines] at inLines
      cases inLines
  | @store metric is isAgent read =>
    refine .metric member (MonitorServer.store_lines distinct member role) (fun event inRest => ?_)
      (Handled.accepted_of_read atIndex is isAgent read) rfl
    obtain ⟨alert, -, rfl⟩ := List.mem_map.mp inRest
    exact fun _ => rfl
  | addRule is parsed =>
    refine .neutral member (neutral_lines (fun output inOutputs => ?_) _) rfl
    simp only [List.mem_cons, List.not_mem_nil, or_false] at inOutputs
    rcases inOutputs with rfl | rfl | rfl <;> exact fun _ => rfl
  | _ =>
    refine .neutral member (neutral_lines (fun output inOutputs => ?_) _) rfl
    rw [List.mem_singleton.mp inOutputs]
    exact fun _ => rfl

/-- The hosts on which a dashboard follows the server: every host that has a
name, and every host at all while no metric without one was accepted. -/
def Followed (platform : Platform) (log : List Entry) (host : Bytes) : Prop :=
  host ≠ [] ∨ ∀ h metric, .handled h ∈ log → h.accepted platform = some metric → metric.host ≠ []

theorem Followed.of_append {platform : Platform} {log entries : List Entry} {host : Bytes}
    (followed : Followed platform (log ++ entries) host) : Followed platform log host :=
  followed.imp_right fun all h metric member => all h metric (List.mem_append_left _ member)

/-- Invariant of a run: whatever a dashboard held before, the lines sent on its
connection bring its metrics in step with the server's. -/
theorem ServerRun.dashboard_agrees {platform : Platform} {server : MonitorServer} {log : List Entry}
    (run : ServerRun platform server log) :
    ∀ connection ∈ server.clients_, connection.role = .Dashboard → ∀ metrics,
      Agree (Followed platform log) ((wire connection.fd log).foldl metricsAfter metrics) server.latest_metrics_ := by
  refine run.dashboard_invariant metricsAfter
    (fun log metrics server => Agree (Followed platform log) metrics server.latest_metrics_) ?_ ?_
  · intro log entries metrics before after agree latest _ host followed
    rw [latest]
    exact agree host followed.of_append
  intro before after log clock index client line outputs connection metrics previous handling atIndex member role agree
  cases handling.dashboard_lines (ServerRun.fds_nodup previous) atIndex member role with
  | snapshot lines neutral latest =>
    rw [lines, List.foldl_append, List.foldl_cons, foldl_of_neutral neutral, latest]
    exact agree_snapshot (ServerRun.latest_keyed previous) _ _ _
  | @metric metric _ inClients lines neutral accepted latest =>
    rw [lines, List.foldl_cons, foldl_of_neutral neutral, latest]
    have inStep : Agree (Followed platform (log ++ [.handled ⟨before, clock, index, line, outputs, after⟩]))
        metrics before.latest_metrics_ := fun host followed => agree inClients host followed.of_append
    exact inStep.metric fun followed => followed.elim id fun all => all _ metric (by simp) accepted
  | neutral inClients neutral latest =>
    rw [foldl_of_neutral neutral, latest]
    exact fun host followed => agree inClients host followed.of_append

/-- For every registered dashboard connection of a run: once all lines sent on it
are handled, whatever the dashboard held before, its metrics have the same
record for each host as the server's. -/
theorem dashboard_follows_metrics {platform : Platform} {server : MonitorServer} {log : List Entry}
    {connection : ClientConnection} (run : ServerRun platform server log) (member : connection ∈ server.clients_)
    (role : connection.role = .Dashboard) (outside : ℕ → Bytes × Json) (state : DashboardState) :
    ∃ last, handle_events outside ((wire connection.fd log).map ServerEvent.toObject) state = .ok last ∧
      ∀ host, Followed platform log host →
        last.metrics.lookup host = (server.latest_metrics_.lookup host).map metricRecord := by
  refine ⟨_, handle_events_toObject outside (wire connection.fd log) state, ?_⟩
  rw [DashboardState.afterAll_metrics]
  exact run.dashboard_agrees connection member role state.metrics

/-- A dashboard that joins before the metrics of two hosts, one of them stored twice. -/
theorem dashboard_follows_metrics_joined :
    ∃ platform server log connection, ServerRun platform server log ∧ connection ∈ server.clients_ ∧
      connection.role = .Dashboard ∧ server.latest_metrics_.keys.length = 2 ∧
      ∃ last, handle_events (fun _ => ([], .null)) ((wire connection.fd log).map ServerEvent.toObject)
        { aws := .null } = .ok last ∧
        ∀ host, Followed platform log host →
          last.metrics.lookup host = (server.latest_metrics_.lookup host).map metricRecord := by
  let platform : Platform := ⟨fun _ => false⟩
  let clock : ℕ → Tm := fun _ => ⟨2024, 1, 2, 3, 4, 5⟩
  let requests : List Request :=
    [.accept 4 ⟨(127, 0, 0, 1), 50000⟩,
     .line clock 0 (ascii "\x7b\"type\":\"register\",\"role\":\"dashboard\"\x7d"),
     .accept 5 ⟨(127, 0, 0, 1), 50001⟩,
     .line clock 1 (ascii "\x7b\"type\":\"register\",\"role\":\"agent\"\x7d"),
     .line clock 1 (ascii "\x7b\"type\":\"metrics\",\"host\":\"a\",\"cpu_percent\":1.00\x7d"),
     .line clock 1 (ascii "\x7b\"type\":\"metrics\",\"host\":\"b\",\"cpu_percent\":2.00\x7d"),
     .line clock 1 (ascii "\x7b\"type\":\"metrics\",\"host\":\"a\",\"cpu_percent\":3.00\x7d")]
  have served : MonitorServer.servesTo platform requests (fun server _ =>
      server.latest_metrics_.keys.length == 2 &&
        server.clients_.any fun connection => decide (connection.role = .Dashboard)) = true := by decide +kernel
  obtain ⟨server, log, run, tested⟩ := MonitorServer.run_of_servesTo served
  simp only [Bool.and_eq_true, List.any_eq_true, beq_iff_eq, decide_eq_true_eq] at tested
  obtain ⟨two, connection, member, role⟩ := tested
  exact ⟨platform, server, log, connection, run, member, role, two, dashboard_follows_metrics run member role _ _⟩

/-- The server stores a metric whose host is the empty string, and a dashboard
that is already registered skips it. -/
theorem dashboard_skips_empty_host :
    ¬ ∀ platform server log connection, ServerRun platform server log → connection ∈ server.clients_ →
      connection.role = .Dashboard → ∀ outside state,
        ∃ last, handle_events outside ((wire connection.fd log).map ServerEvent.toObject) state = .ok last ∧
          ∀ host, last.metrics.lookup host = (server.latest_metrics_.lookup host).map metricRecord := by
  intro follows
  let platform : Platform := ⟨fun _ => false⟩
  let clock : ℕ → Tm := fun _ => ⟨2024, 1, 2, 3, 4, 5⟩
  let requests : List Request :=
    [.accept 4 ⟨(127, 0, 0, 1), 50000⟩,
     .line clock 0 (ascii "\x7b\"type\":\"register\",\"role\":\"dashboard\"\x7d"),
     .accept 5 ⟨(127, 0, 0, 1), 50001⟩,
     .line clock 1 (ascii "\x7b\"type\":\"register\",\"role\":\"agent\"\x7d"),
     .line clock 1 (ascii "\x7b\"type\":\"metrics\",\"host\":\"\",\"cpu_percent\":1.00\x7d")]
  have served : MonitorServer.servesTo platform requests (fun server log =>
      (server.latest_metrics_.lookup []).isSome &&
        server.clients_.any fun connection => decide (connection.role = .Dashboard) &&
          (((wire connection.fd log).foldl metricsAfter ∅).lookup []).isNone) = true := by decide +kernel
  obtain ⟨server, log, run, tested⟩ := MonitorServer.run_of_servesTo served
  simp only [Bool.and_eq_true, List.any_eq_true, decide_eq_true_eq, Option.isNone_iff_eq_none] at tested
  obtain ⟨stored, connection, member, role, skipped⟩ := tested
  obtain ⟨metric, found⟩ := Option.isSome_iff_exists.mp stored
  let outside : ℕ → Bytes × Json := fun _ => ([], .null)
  obtain ⟨last, handled, same⟩ := follows platform server log connection run member role outside { aws := .null }
  rw [handle_events_toObject] at handled
  cases handled
  have atEmpty := same []
  rw [DashboardState.afterAll_metrics, skipped, found] at atEmpty
  cases atEmpty

end SysNetMon
