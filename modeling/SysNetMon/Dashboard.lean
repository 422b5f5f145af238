import SysNetMon.Collections
import SysNetMon.Encoders

/-!
The dashboard's `_handle_event`, on decoded values.
-/

namespace SysNetMon
open Bytes Json KeyedMap

/-- The part of `MonitorConnector.state` that `_handle_event` reads and writes. -/
structure DashboardState where
  last_event : Option Bytes := none
  metrics : AList (fun _ : Bytes => Json) := ∅
  alerts : List Json := []
  chat : List Json := []
  rules : Json := .arr []
  aws : Json

/-- What `_handle_event` can raise: a value of the wrong type, or a missing key. -/
inductive PyError where
  | type
  | key
  deriving DecidableEq

/-- `event.get(name, default)` -/
def pyGet (event : List (Bytes × Json)) (name : String) (default : Json) : Json :=
  (member (ascii name) event).getD default

/-- The truth value of a decoded value. -/
def truthy : Json → Bool
  | .null => false
  | .bool b => b
  | .num q => q ≠ 0
  | .str s => s ≠ []
  | .arr items => !items.isEmpty
  | .obj ms => !ms.isEmpty

/-- `item["host"]`, for items whose host is a string, as it is in every line of the server. -/
def hostOf : Json → Except PyError Bytes
  | .obj ms =>
    match member (ascii "host") ms with
    | some (.str host) => .ok host
    | some _ => .error .type
    | none => .error .key
  | _ => .error .type

/-- `{item["host"]: item for item in items}` -/
def metricsByHost (items : List Json) : Except PyError (AList fun _ : Bytes => Json) :=
  items.foldlM (fun metrics item => do
    let host ← hostOf item
    return metrics.insert host item) ∅

/-- `items[-n:]` -/
def lastItems (n : ℕ) (items : List Json) : List Json := items.drop (items.length - n)

/-- A decoded `type` that is the literal `name`. -/
def isType (type : Json) (name : String) : Bool :=
  match type with
  | .str s => s = ascii name
  | _ => false

/-- `now` is the clock reading, `result` what `upload_alert` returns if it is called. -/
def handle_event (now : Bytes) (result : Json) (event : Json) (state : DashboardState) :
    Except PyError DashboardState :=
  match event with
  | .obj event =>
    let event_type := pyGet event "type" .null
    let state := { state with last_event := some now }
    if isType event_type "snapshot" then
      match pyGet event "metrics" (.arr []) with
      | .arr items => do
        let metrics ← metricsByHost items
        return { state with metrics }
      | _ => .error .type
    else if isType event_type "metric" then
      match pyGet event "data" (.obj []) with
      | .obj metric =>
        if truthy (pyGet metric "host" .null) then do
          let host ← hostOf (.obj metric)
          return { state with metrics := state.metrics.insert host (.obj metric) }
        else .ok state
      | _ => .error .type
    else if isType event_type "alert" then
      let alert := pyGet event "data" (.obj [])
      .ok { state with alerts := lastItems 50 (state.alerts ++ [alert]), aws := result }
    else if isType event_type "chat" then
      let entry := .obj [(ascii "from", pyGet event "from" (.str (ascii "unknown"))),
        (ascii "text", pyGet event "text" (.str [])), (ascii "timestamp", pyGet event "timestamp" (.str now))]
      .ok { state with chat := lastItems 80 (state.chat ++ [entry]) }
    else if isType event_type "rules" then
      .ok { state with rules := pyGet event "items" (.arr []) }
    else if isType event_type "ack" || isType event_type "error" then
      let entry := .obj [(ascii "from", event_type), (ascii "text", pyGet event "message" (.str [])),
        (ascii "timestamp", .str now)]
      .ok { state with chat := lastItems 80 (state.chat ++ [entry]) }
    else
      -- a list or a dict is not hashable, so asking whether it is in a set raises
      match event_type with
      | .arr _ => .error .type
      | .obj _ => .error .type
      | _ => .ok state
  | _ => .error .type

/-- The events of one connection, handled in order. `outside i` gives the clock
reading and the upload result for the event at position `i`. -/
def handle_events (outside : ℕ → Bytes × Json) : List Json → DashboardState → Except PyError DashboardState
  | [], state => .ok state
  | event :: events, state => do
    let next ← handle_event (outside 0).1 (outside 0).2 event state
    handle_events (fun i => outside (i + 1)) events next

/-- What the dashboard keeps of a metric. -/
def metricRecord (metric : MetricSnapshot) : Json := meaning (metricDoc metric)

/-- The effect of an event of the server on the dashboard's metrics. -/
def metricsAfter (metrics : AList fun _ : Bytes => Json) : ServerEvent → AList fun _ : Bytes => Json
  | .snapshot _ latest => fill MetricSnapshot.host metricRecord ∅ (ordered latest)
  | .metric metric => if metric.host = [] then metrics else metrics.insert metric.host (metricRecord metric)
  | _ => metrics

/-- What the dashboard keeps of a rule. -/
def ruleRecord (rule : AlertRule) : Json := meaning (ruleDoc rule)

/-- An entry of the chat feed. -/
def chatEntry (sender text timestamp : Bytes) : Json :=
  .obj [(ascii "from", .str sender), (ascii "text", .str text), (ascii "timestamp", .str timestamp)]

/-- The effect of an event of the server on the dashboard. -/
def DashboardState.after (now : Bytes) (result : Json) (state : DashboardState) (event : ServerEvent) : DashboardState :=
  let state := { state with last_event := some now, metrics := metricsAfter state.metrics event }
  match event with
  | .ack message => { state with chat := lastItems 80 (state.chat ++ [chatEntry (ascii "ack") message now]) }
  | .error message => { state with chat := lastItems 80 (state.chat ++ [chatEntry (ascii "error") message now]) }
  | .chat message =>
    { state with chat := lastItems 80 (state.chat ++ [chatEntry message.sender message.text message.timestamp]) }
  | .alert data => { state with alerts := lastItems 50 (state.alerts ++ [meaning (alertDoc data)]), aws := result }
  | .rules items => { state with rules := .arr (items.map ruleRecord) }
  | .snapshot _ _ => state
  | .metric _ => state

def DashboardState.afterAll (state : DashboardState) (outside : ℕ → Bytes × Json) : List ServerEvent → DashboardState
  | [] => state
  | event :: events => (state.after (outside 0).1 (outside 0).2 event).afterAll (fun i => outside (i + 1)) events

theorem hostOf_metricRecord (metric : MetricSnapshot) : hostOf (metricRecord metric) = .ok metric.host := by
  simp only [metricRecord, metricDoc, meaning, meaningMembers, hostOf, member]
  rfl

theorem meaningItems_map {α : Type} (doc : α → Doc) (items : List α) :
    meaningItems (items.map doc) = items.map fun item => meaning (doc item) := by
  induction items with
  | nil => rfl
  | cons item items ih => rw [List.map_cons, meaningItems, ih, List.map_cons]

theorem metricsByHost_records (metrics : List MetricSnapshot) :
    metricsByHost (metrics.map metricRecord) = .ok (fill MetricSnapshot.host metricRecord ∅ metrics) := by
  have general (start : AList fun _ : Bytes => Json) :
      (metrics.map metricRecord).foldlM (fun metrics item => do
        let host ← hostOf item
        return metrics.insert host item) start =
      (.ok (fill MetricSnapshot.host metricRecord start metrics) : Except PyError _) := by
    induction metrics generalizing start with
    | nil => rfl
    | cons metric metrics ih =>
      rw [List.map_cons, List.foldlM_cons, hostOf_metricRecord, fill_cons]
      exact ih _
  exact general ∅

/-- No event of the server makes `_handle_event` raise. -/
theorem handle_event_toObject (now : Bytes) (result : Json) (event : ServerEvent) (state : DashboardState) :
    handle_event now result event.toObject state = .ok (state.after now result event) := by
  cases event with
  | ack message => rfl
  | error message => rfl
  | alert data => rfl
  | chat message => rfl
  | rules items =>
    have shape : handle_event now result (ServerEvent.rules items).toObject state =
        .ok { state with last_event := some now, rules := .arr (meaningItems (items.map ruleDoc)) } := rfl
    rw [shape, meaningItems_map]
    rfl
  | snapshot now' latest =>
    have shape : handle_event now result (ServerEvent.snapshot now' latest).toObject state =
        metricsByHost (meaningItems ((ordered latest).map metricDoc)) >>= fun metrics =>
          .ok { state with last_event := some now, metrics } := rfl
    have items : meaningItems ((ordered latest).map metricDoc) = (ordered latest).map metricRecord :=
      meaningItems_map metricDoc _
    rw [shape, items, metricsByHost_records]
    rfl
  | metric data =>
    have shape : handle_event now result (ServerEvent.metric data).toObject state =
        if truthy (.str data.host) then
          .ok { state with last_event := some now, metrics := state.metrics.insert data.host (metricRecord data) }
        else .ok { state with last_event := some now } := rfl
    rw [shape, DashboardState.after, metricsAfter]
    by_cases empty : data.host = []
    · rw [if_neg (by simp [truthy, empty]), if_pos empty]
    · rw [if_pos (by simp [truthy, empty]), if_neg empty]

/-- The dashboard after the events of a connection. -/
theorem handle_events_toObject (outside : ℕ → Bytes × Json) (events : List ServerEvent) (state : DashboardState) :
    handle_events outside (events.map ServerEvent.toObject) state = .ok (state.afterAll outside events) := by
  induction events generalizing outside state with
  | nil => rfl
  | cons event events ih =>
    rw [List.map_cons, handle_events, handle_event_toObject]
    exact ih _ _

theorem DashboardState.afterAll_metrics (outside : ℕ → Bytes × Json) (events : List ServerEvent)
    (state : DashboardState) : (state.afterAll outside events).metrics = events.foldl metricsAfter state.metrics := by
  induction events generalizing outside state with
  | nil => rfl
  | cons event events ih =>
    rw [afterAll, ih, List.foldl_cons]
    cases event <;> rfl

/-- Events that an effect leaves alone change nothing one after another. -/
theorem foldl_of_neutral {β : Type} {effect : β → ServerEvent → β} {events : List ServerEvent}
    (neutral : ∀ event ∈ events, ∀ kept, effect kept event = kept) (kept : β) : events.foldl effect kept = kept := by
  induction events with
  | nil => rfl
  | cons event events ih =>
    rw [List.foldl_cons, neutral event List.mem_cons_self]
    exact ih fun other member => neutral other (List.mem_cons_of_mem event member)

end SysNetMon
