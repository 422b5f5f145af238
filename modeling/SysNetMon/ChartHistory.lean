import SysNetMon.Collections
import SysNetMon.Page
import SysNetMon.Transition

/-!
The chart history of the page: the series that `appendHistory` keeps for each host.
-/

namespace SysNetMon
open Window

/-- The series of a host. Numbers are added exactly here. -/
structure Series where
  timestamps : List (List Char) := []
  cpu : List ℚ := []
  memory : List ℚ := []
  network : List ℚ := []
  deriving DecidableEq

/-- The names that every object inherits from `Object.prototype`. -/
def objectPrototype : List (List Char) :=
  ["constructor".toList, "__defineGetter__".toList, "__defineSetter__".toList, "hasOwnProperty".toList,
    "__lookupGetter__".toList, "__lookupSetter__".toList, "isPrototypeOf".toList, "propertyIsEnumerable".toList,
    "toString".toList, "valueOf".toList, "__proto__".toList, "toLocaleString".toList]

/-- The object `history`, by its own properties. -/
abbrev History := AList fun _ : List Char => Series

/-- What reading a property of `history` gives: a series, something inherited
that has none of the four lists, or `undefined`. -/
inductive Property where
  | own (store : Series)
  | inherited
  | undefined

def getProperty (history : History) (name : List Char) : Property :=
  match history.lookup name with
  | some store => .own store
  | none => if objectPrototype.contains name then .inherited else .undefined

inductive JsError where
  | TypeError
  deriving DecidableEq

def Series.push (store : Series) (metric : PageMetric) : Series :=
  { timestamps := store.timestamps ++ [metric.timestamp]
    cpu := store.cpu ++ [metric.cpu_percent]
    memory := store.memory ++ [metric.memory_percent]
    network := store.network ++ [metric.network_rx_kbps + metric.network_tx_kbps] }

def Series.shift (store : Series) : Series :=
  { timestamps := store.timestamps.tail
    cpu := store.cpu.tail
    memory := store.memory.tail
    network := store.network.tail }

/-- The part of `appendHistory` after the series was found or made. -/
def Series.append (store : Series) (metric : PageMetric) : Series :=
  let pushed := store.push metric
  if 20 < pushed.timestamps.length then pushed.shift else pushed

def appendHistory (history : History) (metric : PageMetric) : Except JsError History :=
  match getProperty history metric.host with
  | .own store => .ok (history.insert metric.host (store.append metric))
  | .undefined => .ok (history.insert metric.host (Series.append {} metric))
  -- what is inherited counts as true, and its `timestamps` is `undefined`
  | .inherited => .error .TypeError

/-- `Object.values(metrics).forEach(appendHistory)` -/
def refreshHistory (history : History) (metrics : List PageMetric) : Except JsError History :=
  metrics.foldlM appendHistory history

/-- The refreshes of the page in order. -/
def refreshAll (refreshes : List (List PageMetric)) : Except JsError History := refreshes.foldlM refreshHistory ∅

/-- What a chart shows of a sample. -/
structure Point where
  timestamp : List Char
  cpu : ℚ
  memory : ℚ
  network : ℚ
  deriving DecidableEq

def PageMetric.point (metric : PageMetric) : Point :=
  ⟨metric.timestamp, metric.cpu_percent, metric.memory_percent, metric.network_rx_kbps + metric.network_tx_kbps⟩

/-- The four series of some points, aligned. -/
def Series.of (points : List Point) : Series :=
  ⟨points.map Point.timestamp, points.map Point.cpu, points.map Point.memory, points.map Point.network⟩

/-- The points of a host that the refreshes polled, in order. -/
def pointsOf (host : List Char) (metrics : List PageMetric) : List Point :=
  (metrics.filter fun metric => metric.host = host).map PageMetric.point

/-- Each host seen has the series of its last points, at most twenty. `keep` says
which of the points polled are meant. -/
def Charts (keep : List Point → List Point) (metrics : List PageMetric) (history : History) : Prop :=
  ∀ host, history.lookup host =
    if pointsOf host metrics = [] then none else some (.of ((keep (pointsOf host metrics)).rtake 20))

theorem Series.append_of (points : List Point) (metric : PageMetric) :
    (Series.of (points.rtake 20)).append metric = .of ((points ++ [metric.point]).rtake 20) := by
  have pushed : (Series.of (points.rtake 20)).push metric = .of (points.rtake 20 ++ [metric.point]) := by
    simp [push, Series.of, PageMetric.point]
  have shifted (points : List Point) : (Series.of points).shift = .of points.tail := by
    simp [shift, Series.of, List.map_tail]
  have length : (Series.of (points.rtake 20 ++ [metric.point])).timestamps.length =
      (points.rtake 20 ++ [metric.point]).length := List.length_map _
  rw [append, pushed, shifted, ← push_rtake]
  by_cases long : 20 < (points.rtake 20 ++ [metric.point]).length
  · rw [if_pos (by rwa [length]), if_pos long]
  · rw [if_neg (by rwa [length]), if_neg long]

theorem pointsOf_append (host : List Char) (metrics : List PageMetric) (metric : PageMetric) :
    pointsOf host (metrics ++ [metric]) =
      pointsOf host metrics ++ if metric.host = host then [metric.point] else [] := by
  rw [pointsOf, List.filter_append, List.map_append, List.filter_singleton]
  by_cases same : metric.host = host <;> simp [same, pointsOf]

/-- A sample of a host with a plain name is appended to the points of the host. -/
theorem Charts.append {metrics : List PageMetric} {history : History} (charts : Charts id metrics history)
    {metric : PageMetric} (plain : metric.host ∉ objectPrototype) :
    ∃ after, appendHistory history metric = .ok after ∧ Charts id (metrics ++ [metric]) after := by
  have appended : appendHistory history metric = .ok (history.insert metric.host
      (.of ((pointsOf metric.host metrics ++ [metric.point]).rtake 20))) := by
    have found := charts metric.host
    rw [appendHistory, getProperty, found, ← Series.append_of]
    by_cases first : pointsOf metric.host metrics = []
    · rw [if_pos first]
      dsimp only
      rw [if_neg (mt List.contains_iff_mem.mp plain), first]
      rfl
    · rw [if_neg first]
      rfl
  refine ⟨_, appended, fun host => ?_⟩
  rw [pointsOf_append]
  by_cases same : metric.host = host
  · subst same
    rw [AList.lookup_insert, if_pos rfl, if_neg (List.append_ne_nil_of_right_ne_nil _ (List.cons_ne_nil _ _))]
    rfl
  · rw [AList.lookup_insert_ne (Ne.symm same), if_neg same, List.append_nil, charts host]

theorem Charts.refresh {metrics : List PageMetric} {history : History} (charts : Charts id metrics history)
    {more : List PageMetric} (plain : ∀ metric ∈ more, metric.host ∉ objectPrototype) :
    ∃ after, refreshHistory history more = .ok after ∧ Charts id (metrics ++ more) after := by
  have refreshed := Fold.foldlM_keeps appendHistory (Charts id) (fun metric => [metric])
    (fun charts plain => charts.append plain) charts plain
  rwa [List.flatMap_singleton'] at refreshed

theorem Charts.refreshes {metrics : List PageMetric} {history : History} (charts : Charts id metrics history)
    {refreshes : List (List PageMetric)} (plain : ∀ metric ∈ refreshes.flatten, metric.host ∉ objectPrototype) :
    ∃ after, refreshes.foldlM refreshHistory history = .ok after ∧ Charts id (metrics ++ refreshes.flatten) after := by
  have run := Fold.foldlM_keeps refreshHistory (Charts id) id (fun charts plain => charts.refresh plain) charts
    (List.forall_mem_flatten.mp plain)
  rwa [List.flatMap_id] at run

/-- For hosts whose names an object does not inherit, the charts hold the last
points that were polled, one for each sample in a refresh. -/
theorem charts_hold_last_polls {refreshes : List (List PageMetric)}
    (plain : ∀ metric ∈ refreshes.flatten, metric.host ∉ objectPrototype) :
    ∃ history, refreshAll refreshes = .ok history ∧ Charts id refreshes.flatten history ∧
      ∀ host store, history.lookup host = some store →
        store.timestamps.length ≤ 20 ∧ store.cpu.length = store.timestamps.length ∧
          store.memory.length = store.timestamps.length ∧ store.network.length = store.timestamps.length := by
  have empty : Charts id [] (∅ : History) := fun host => AList.lookup_empty host
  obtain ⟨history, run, charts⟩ := empty.refreshes plain
  refine ⟨history, run, charts, fun host store found => ?_⟩
  rw [charts host] at found
  split at found
  · cases found
  · cases found
    simp only [Series.of, List.length_map, length_rtake, and_self, and_true]
    exact min_le_left _ _

/-- The sample of a host, in a state that did not change between two refreshes. -/
def idleSample : PageMetric := ⟨['a'], ['9', ':', '0', '5'], 10, 40, 70, 1, 2, 512, 2048, 10, 20⟩

theorem charts_hold_last_polls_idle : ∃ history, refreshAll [[idleSample], [idleSample]] = .ok history ∧
    Charts id [idleSample, idleSample] history :=
  have plain : ∀ metric ∈ [[idleSample], [idleSample]].flatten, metric.host ∉ objectPrototype := by
    simp only [List.flatten_cons, List.flatten_nil, List.singleton_append, List.forall_mem_cons, idleSample]
    decide +kernel
  have ⟨history, run, charts, _⟩ := charts_hold_last_polls plain
  ⟨history, run, charts⟩

/-- A sample that is polled again is one more point. -/
theorem unchanged_sample_adds_point :
    ¬ ∀ refreshes, ∃ history, refreshAll refreshes = .ok history ∧
      Charts (List.destutter (· ≠ ·)) refreshes.flatten history := by
  intro distinct
  obtain ⟨history, run, charts⟩ := distinct [[idleSample], [idleSample]]
  have found := charts ['a']
  cases run
  exact absurd found (by decide +kernel)

end SysNetMon
