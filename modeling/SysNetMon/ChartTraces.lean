import Mathlib.Data.List.GetD
import SysNetMon.ChartHistory
import SysNetMon.PropertyOrder

/-!
The charts of the page: the traces that `renderCharts` makes of the history, and
how the colour of a host fares when other hosts join.
-/

namespace SysNetMon
open PropertyOrder Window

/-- The number that a property name is the text of, if it is an array index. -/
def arrayIndex (name : List Char) : Option ℕ :=
  let n := name.foldl (fun n c => 10 * n + (c.toNat - 48)) 0
  if Nat.toDigits 10 n = name ∧ n < 2 ^ 32 - 1 then some n else none

/-- The object `history` with the names of its properties in the order in which they were made. -/
structure HistoryObject where
  history : History := ∅
  created : List (List Char) := []

namespace HistoryObject

/-- `appendHistory` with the order of the properties. -/
def append (object : HistoryObject) (metric : PageMetric) : Except JsError HistoryObject := do
  let history ← appendHistory object.history metric
  return {
    history
    created := if object.created.contains metric.host then object.created else object.created ++ [metric.host] }

def refresh (object : HistoryObject) (metrics : List PageMetric) : Except JsError HistoryObject :=
  metrics.foldlM append object

/-- `Object.keys(history)` -/
def keys (object : HistoryObject) : List (List Char) := ownKeys arrayIndex object.created

end HistoryObject

/-- A trace, as far as it is not the same for all. -/
structure Trace where
  x : List (List Char)
  y : List ℚ
  color : String
  name : List Char

/-- The arguments of `Plotly.react`, with what differs between the layouts. -/
structure Chart where
  element : String
  traces : List Trace
  title : String
  ticksuffix : String

def palette : List String := ["#c2410c", "#0f766e", "#1d4ed8", "#be123c", "#ca8a04", "#0891b2"]

/-- The trace that `hosts.forEach` adds to one of the three charts. -/
def traceOf (object : HistoryObject) (series : Series → List ℚ) (index : ℕ) (host : List Char) : Trace :=
  let store := (object.history.lookup host).getD {}
  { x := store.timestamps, y := series store, color := palette.getD (index % palette.length) "", name := host }

def renderCharts (object : HistoryObject) : List Chart :=
  let traces (series : Series → List ℚ) : List Trace := object.keys.mapIdx (traceOf object series)
  [⟨"cpuChart", traces Series.cpu, "CPU Utilization", "%"⟩, ⟨"memoryChart", traces Series.memory, "Memory Pressure", "%"⟩,
    ⟨"networkChart", traces Series.network, "Network Throughput", " KB/s"⟩]

/-- The names of some polls, each once, in the order in which they came up. -/
def firstSeen (metrics : List PageMetric) : List (List Char) := (metrics.map PageMetric.host).eraseDups

/-- The hosts of the later polls that the earlier ones had not, in the order in which they joined. -/
def joinedHosts (earlier later : List PageMetric) : List (List Char) :=
  ((later.map PageMetric.host).removeAll (earlier.map PageMetric.host)).eraseDups

theorem firstSeen_append (earlier later : List PageMetric) :
    firstSeen (earlier ++ later) = firstSeen earlier ++ joinedHosts earlier later := by
  rw [firstSeen, List.map_append, List.eraseDups_append]
  rfl

theorem mem_firstSeen {metrics : List PageMetric} {host : List Char} :
    host ∈ firstSeen metrics ↔ ∃ metric ∈ metrics, metric.host = host := by
  rw [firstSeen, List.mem_eraseDups, List.mem_map]

/-- A host that was polled has points. -/
theorem pointsOf_ne_nil {metrics : List PageMetric} {host : List Char}
    (polled : ∃ metric ∈ metrics, metric.host = host) : pointsOf host metrics ≠ [] := by
  obtain ⟨metric, inMetrics, same⟩ := polled
  have one : metric.point ∈ pointsOf host metrics :=
    List.mem_map_of_mem (List.mem_filter.mpr ⟨inMetrics, decide_eq_true same⟩)
  exact List.ne_nil_of_mem one

theorem firstSeen_concat (metrics : List PageMetric) (metric : PageMetric) :
    firstSeen (metrics ++ [metric]) =
      if metric.host ∈ firstSeen metrics then firstSeen metrics else firstSeen metrics ++ [metric.host] := by
  have fresh : joinedHosts metrics [metric] = if metric.host ∈ firstSeen metrics then [] else [metric.host] := by
    rw [joinedHosts, List.map_singleton, firstSeen]
    generalize metrics.map PageMetric.host = hosts
    by_cases old : metric.host ∈ hosts
    · simp [List.removeAll, old]
    · simp [List.removeAll, old, List.eraseDups_cons]
  rw [firstSeen_append, fresh]
  split
  · exact List.append_nil _
  · rfl

theorem nodup_firstSeen (metrics : List PageMetric) : (firstSeen metrics).Nodup := by
  induction metrics using List.reverseRecOn with
  | nil => exact List.nodup_nil
  | append_singleton metrics metric ih =>
    rw [firstSeen_concat]
    split
    · exact ih
    · rename_i fresh
      exact ih.append (List.nodup_singleton _) (List.disjoint_singleton.mpr fresh)

theorem distinct_arrayIndex : Distinct arrayIndex := by
  have text {name : List Char} {n : ℕ} (is : arrayIndex name = some n) : name = Nat.toDigits 10 n := by
    unfold arrayIndex at is
    dsimp only at is
    rw [Option.ite_none_right_eq_some, Option.some.injEq] at is
    rw [← is.2]
    exact is.1.1.symm
  exact fun name other n is is' => (text is).trans (text is').symm

/-- The object after some polls: a series for each host, made when the host came up first. -/
structure HistoryObject.After (metrics : List PageMetric) (object : HistoryObject) : Prop where
  charts : Charts id metrics object.history
  created : object.created = firstSeen metrics

section Run
variable {metrics : List PageMetric} {object : HistoryObject}

/-- A poll of a host adds its series at the end, if the host is new. -/
theorem HistoryObject.After.append (after : object.After metrics) {metric : PageMetric}
    (plain : metric.host ∉ objectPrototype) :
    ∃ next, object.append metric = .ok next ∧ next.After (metrics ++ [metric]) := by
  obtain ⟨history, appended, charts⟩ := after.charts.append plain
  have made := firstSeen_concat metrics metric
  rw [← after.created] at made
  refine ⟨⟨history, firstSeen (metrics ++ [metric])⟩, ?_, charts, rfl⟩
  rw [HistoryObject.append, appended, made]
  simp only [List.contains_iff_mem]
  rfl

theorem HistoryObject.After.refresh (after : object.After metrics) {more : List PageMetric}
    (plain : ∀ metric ∈ more, metric.host ∉ objectPrototype) :
    ∃ next, object.refresh more = .ok next ∧ next.After (metrics ++ more) := by
  have refreshed := Fold.foldlM_keeps HistoryObject.append HistoryObject.After (fun metric => [metric])
    (fun after plain => after.append plain) after plain
  rwa [List.flatMap_singleton'] at refreshed

theorem HistoryObject.After.refreshes (after : object.After metrics) {refreshes : List (List PageMetric)}
    (plain : ∀ metric ∈ refreshes.flatten, metric.host ∉ objectPrototype) :
    ∃ next, refreshes.foldlM HistoryObject.refresh object = .ok next ∧ next.After (metrics ++ refreshes.flatten) := by
  have run := Fold.foldlM_keeps HistoryObject.refresh HistoryObject.After id (fun after plain => after.refresh plain)
    after (List.forall_mem_flatten.mp plain)
  rwa [List.flatMap_id] at run

/-- What a chart is made of. -/
theorem mem_renderCharts {chart : Chart} (member : chart ∈ renderCharts object) :
    ∃ series, (series = Series.cpu ∨ series = Series.memory ∨ series = Series.network) ∧
      chart.traces = object.keys.mapIdx (traceOf object series) := by
  simp only [renderCharts, List.mem_cons, List.not_mem_nil, or_false] at member
  rcases member with rfl | rfl | rfl
  · exact ⟨_, Or.inl rfl, rfl⟩
  · exact ⟨_, Or.inr (Or.inl rfl), rfl⟩
  · exact ⟨_, Or.inr (Or.inr rfl), rfl⟩

theorem HistoryObject.After.nodup_keys (after : object.After metrics) : object.keys.Nodup := by
  rw [HistoryObject.keys, (perm_ownKeys _).nodup_iff, after.created]
  exact nodup_firstSeen metrics

/-- A trace has the colour of its host's place. -/
theorem HistoryObject.After.trace_color (after : object.After metrics) {series : Series → List ℚ} {trace : Trace}
    (member : trace ∈ object.keys.mapIdx (traceOf object series)) :
    trace.name ∈ object.created ∧ trace = traceOf object series (object.keys.idxOf trace.name) trace.name := by
  obtain ⟨index, inside, rfl⟩ := List.mem_mapIdx.mp member
  refine ⟨mem_ownKeys.mp (List.getElem_mem inside), ?_⟩
  have place : object.keys.idxOf object.keys[index] = index := after.nodup_keys.idxOf_getElem index inside
  rw [traceOf, place]
  rfl

theorem color_eq_iff (i j : ℕ) :
    palette.getD (i % palette.length) "" = palette.getD (j % palette.length) "" ↔ i % 6 = j % 6 := by
  have distinct : palette.Nodup := by decide
  have inside (n : ℕ) : n % palette.length < palette.length := Nat.mod_lt n (by decide)
  rw [List.getD_eq_getElem _ _ (inside i), List.getD_eq_getElem _ _ (inside j), distinct.getElem_inj_iff]
  rfl

end Run

section Results

theorem HistoryObject.After.empty : HistoryObject.After [] {} := ⟨fun host => AList.lookup_empty host, rfl⟩

/-- Each chart has one trace for each host that was polled: its last points, at
most twenty, in the colour of its place. -/
theorem HistoryObject.After.traces {metrics : List PageMetric} {object : HistoryObject} (after : object.After metrics)
    {chart : Chart} (member : chart ∈ renderCharts object) :
    chart.traces.map Trace.name = object.keys ∧ ∀ trace ∈ chart.traces,
      trace.x = ((pointsOf trace.name metrics).rtake 20).map Point.timestamp ∧ trace.y.length = trace.x.length ∧
        trace.color = palette.getD (object.keys.idxOf trace.name % palette.length) "" := by
  obtain ⟨series, kind, made⟩ := mem_renderCharts member
  rw [made]
  constructor
  · rw [List.mapIdx_eq_zipIdx_map, List.map_map]
    exact List.zipIdx_map_fst 0 _
  · intro trace inside
    obtain ⟨known, is⟩ := after.trace_color inside
    rw [after.created, mem_firstSeen] at known
    have store := after.charts trace.name
    rw [if_neg (pointsOf_ne_nil known)] at store
    generalize trace.name = host at store is
    subst is
    rw [traceOf, store]
    refine ⟨rfl, ?_, rfl⟩
    rcases kind with rfl | rfl | rfl <;> simp [Series.of]

/-- Of at most six hosts no two have one colour. -/
theorem HistoryObject.After.nodup_colors {metrics : List PageMetric} {object : HistoryObject}
    (after : object.After metrics) {chart : Chart} (member : chart ∈ renderCharts object)
    (few : chart.traces.length ≤ 6) : (chart.traces.map Trace.color).Nodup := by
  obtain ⟨names, own⟩ := after.traces member
  have nodup : (chart.traces.map Trace.name).Nodup := names ▸ after.nodup_keys
  refine List.Nodup.map_on (fun trace inside trace' inside' same => ?_) nodup.of_map
  have place : ∀ trace ∈ chart.traces, object.keys.idxOf trace.name < 6 := fun trace inside => by
    have known : trace.name ∈ object.keys := names ▸ List.mem_map_of_mem inside
    have bound := List.idxOf_lt_length_of_mem known
    rw [← names, List.length_map] at bound
    exact lt_of_lt_of_le (names ▸ bound) few
  rw [(own trace inside).2.2, (own trace' inside').2.2, color_eq_iff, Nat.mod_eq_of_lt (place trace inside),
    Nat.mod_eq_of_lt (place trace' inside')] at same
  have known : trace.name ∈ object.keys := names ▸ List.mem_map_of_mem inside
  exact List.inj_on_of_nodup_map nodup inside inside' ((List.idxOf_inj known).mp same)

/-- The traces of a chart: one for each host that was polled, with its last points,
at most twenty, of which the chart shows `value`; at most six hosts have different colours. -/
structure TracesShow (metrics : List PageMetric) (value : Point → ℚ) (traces : List Trace) : Prop where
  names : (traces.map Trace.name).Perm (firstSeen metrics)
  times : ∀ trace ∈ traces, trace.x = ((pointsOf trace.name metrics).rtake 20).map Point.timestamp
  values : ∀ trace ∈ traces, trace.y = ((pointsOf trace.name metrics).rtake 20).map value
  colors : traces.length ≤ 6 → (traces.map Trace.color).Nodup

theorem HistoryObject.After.tracesShow {metrics : List PageMetric} {object : HistoryObject}
    (after : object.After metrics) {chart : Chart} (member : chart ∈ renderCharts object)
    {series : Series → List ℚ} {value : Point → ℚ}
    (made : chart.traces = object.keys.mapIdx (traceOf object series))
    (same : ∀ points, series (.of points) = points.map value) : TracesShow metrics value chart.traces where
  names := by
    rw [(after.traces member).1, HistoryObject.keys, after.created]
    exact perm_ownKeys _
  times trace inside := ((after.traces member).2 trace inside).1
  values trace inside := by
    rw [made] at inside
    obtain ⟨known, is⟩ := after.trace_color inside
    rw [after.created, mem_firstSeen] at known
    rw [is, traceOf, after.charts trace.name, if_neg (pointsOf_ne_nil known)]
    exact same _
  colors := after.nodup_colors member

/-- For hosts whose names an object does not inherit: the page draws the three
charts, of the load, the memory and the sum of both rates. -/
theorem traces_show_last_polls {refreshes : List (List PageMetric)}
    (plain : ∀ metric ∈ refreshes.flatten, metric.host ∉ objectPrototype) :
    ∃ object cpu memory network, refreshes.foldlM HistoryObject.refresh {} = .ok object ∧
      renderCharts object = [⟨"cpuChart", cpu, "CPU Utilization", "%"⟩, ⟨"memoryChart", memory, "Memory Pressure", "%"⟩,
        ⟨"networkChart", network, "Network Throughput", " KB/s"⟩] ∧
      TracesShow refreshes.flatten Point.cpu cpu ∧ TracesShow refreshes.flatten Point.memory memory ∧
      TracesShow refreshes.flatten Point.network network := by
  obtain ⟨object, run, after⟩ := HistoryObject.After.empty.refreshes plain
  rw [List.nil_append] at after
  refine ⟨object, _, _, _, run, rfl, ?_, ?_, ?_⟩
  · exact after.tracesShow List.mem_cons_self rfl fun _ => rfl
  · exact after.tracesShow (List.mem_cons_of_mem _ List.mem_cons_self) rfl fun _ => rfl
  · exact after.tracesShow (List.mem_cons_of_mem _ (List.mem_cons_of_mem _ List.mem_cons_self)) rfl fun _ => rfl

theorem traces_show_last_polls_idle : ∃ object cpu,
    [[idleSample], [idleSample]].foldlM HistoryObject.refresh {} = .ok object ∧
    ((renderCharts object)[0]?).map Chart.traces = some cpu ∧ cpu.length = 1 ∧ ∀ trace ∈ cpu, trace.y = [10, 10] := by
  have plain : ∀ metric ∈ [[idleSample], [idleSample]].flatten, metric.host ∉ objectPrototype := by
    simp only [List.flatten_cons, List.flatten_nil, List.singleton_append, List.forall_mem_cons, idleSample]
    decide +kernel
  obtain ⟨object, cpu, memory, network, run, charts, shown, -⟩ := traces_show_last_polls plain
  have hosts : firstSeen [[idleSample], [idleSample]].flatten = [['a']] := by decide +kernel
  have names := shown.names
  rw [hosts, List.perm_singleton] at names
  refine ⟨object, cpu, run, charts ▸ rfl, ?_, fun trace inside => ?_⟩
  · rw [← List.length_map Trace.name, names]
    rfl
  · have name : trace.name = ['a'] := List.mem_singleton.mp (names ▸ List.mem_map_of_mem inside)
    rw [shown.values trace inside, name]
    decide +kernel

/-- The colours of the traces that a chart has of a host. -/
def Chart.colorsOf (chart : Chart) (host : List Char) : List String :=
  (chart.traces.filter fun trace => trace.name = host).map Trace.color

/-- A chart has one trace of each host that was polled. -/
theorem HistoryObject.After.colorsOf {metrics : List PageMetric} {object : HistoryObject} (after : object.After metrics)
    {chart : Chart} (member : chart ∈ renderCharts object) {host : List Char} (known : host ∈ object.created) :
    chart.colorsOf host = [palette.getD (object.keys.idxOf host % palette.length) ""] := by
  obtain ⟨names, own⟩ := after.traces member
  have nodup : (chart.traces.map Trace.name).Nodup := names ▸ after.nodup_keys
  have listed : host ∈ chart.traces.map Trace.name := names ▸ mem_ownKeys.mpr known
  have one : ((chart.traces.filter fun trace => trace.name = host).map Trace.name).length = 1 := by
    rw [← Function.comp_def (fun name => decide (name = host)), ← List.filter_map, List.filter_eq,
      List.length_replicate]
    exact List.count_eq_one_of_mem nodup listed
  rw [List.length_map] at one
  obtain ⟨trace, is⟩ := List.length_eq_one_iff.mp one
  have inside : trace ∈ chart.traces.filter fun trace => trace.name = host := is ▸ List.mem_singleton_self trace
  obtain ⟨inChart, named⟩ := List.mem_filter.mp inside
  rw [Chart.colorsOf, is, List.map_singleton, (own trace inChart).2.2, of_decide_eq_true named]

/-- For hosts whose names an object does not inherit: between two moments each host
has one colour in each of the three charts, and keeps it exactly where, of the hosts
that join, a multiple of six has a number for a name and goes before it. So names
that are no numbers never cost a host its colour. -/
theorem colors_kept_iff {earlier later : List (List PageMetric)}
    (plain : ∀ metric ∈ earlier.flatten ++ later.flatten, metric.host ∉ objectPrototype) :
    ∃ object object', earlier.foldlM HistoryObject.refresh {} = .ok object ∧
      later.foldlM HistoryObject.refresh object = .ok object' ∧
      (renderCharts object).length = 3 ∧ (renderCharts object').length = 3 ∧
      ∀ chart ∈ renderCharts object, ∀ chart' ∈ renderCharts object', ∀ host ∈ firstSeen earlier.flatten,
        ∃ color color', chart.colorsOf host = [color] ∧ chart'.colorsOf host = [color'] ∧
          (color = color' ↔ 6 ∣ ((joinedHosts earlier.flatten later.flatten).filter fun other =>
            Before arrayIndex other host).length) := by
  rw [List.forall_mem_append] at plain
  obtain ⟨object, run, after⟩ := HistoryObject.After.empty.refreshes plain.1
  obtain ⟨object', run', after'⟩ := after.refreshes plain.2
  rw [List.nil_append] at after after'
  refine ⟨object, object', run, run', rfl, rfl, fun chart member chart' member' host polled => ?_⟩
  have known : host ∈ object.created := after.created ▸ polled
  have grown : object'.created = object.created ++ joinedHosts earlier.flatten later.flatten := by
    rw [after'.created, after.created, firstSeen_append]
  have known' : host ∈ object'.created := grown ▸ List.mem_append_left _ known
  have nodup := nodup_firstSeen (earlier.flatten ++ later.flatten)
  rw [← after'.created, grown] at nodup
  have moved := idxOf_ownKeys_append distinct_arrayIndex nodup known
  refine ⟨_, _, after.colorsOf member known, after'.colorsOf member' known', ?_⟩
  rw [color_eq_iff, HistoryObject.keys, HistoryObject.keys, grown, moved]
  omega

/-- A host whose name is a number takes the first colour from another one. -/
theorem colors_kept_iff_number_joins : ∃ object object' : HistoryObject,
    [[idleSample, { idleSample with host := ['7'] }]].foldlM HistoryObject.refresh object = .ok object' ∧
      (renderCharts object).length = 3 ∧ ∀ chart ∈ renderCharts object, ∀ chart' ∈ renderCharts object',
        ∃ color color', chart.colorsOf ['a'] = [color] ∧ chart'.colorsOf ['a'] = [color'] ∧ color ≠ color' := by
  have plain : ∀ metric ∈ [[idleSample]].flatten ++ [[idleSample, { idleSample with host := ['7'] }]].flatten,
      metric.host ∉ objectPrototype := by
    simp only [List.flatten_cons, List.flatten_nil, List.append_nil, List.cons_append, List.nil_append,
      List.forall_mem_cons, idleSample]
    decide +kernel
  obtain ⟨object, object', -, run', three, -, kept⟩ := colors_kept_iff plain
  have polled : ['a'] ∈ firstSeen [[idleSample]].flatten := by decide +kernel
  refine ⟨object, object', run', three, fun chart member chart' member' => ?_⟩
  obtain ⟨color, color', own, own', same⟩ := kept chart member chart' member' ['a'] polled
  refine ⟨color, color', own, own', fun is => ?_⟩
  exact absurd (same.mp is) (by decide +kernel)

end Results

end SysNetMon
