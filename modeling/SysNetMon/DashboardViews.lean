import SysNetMon.AlertUpload
import SysNetMon.Collections

/-!
The views of `MonitorConnector.state` after any events: what each of them shows
of the log.
-/

namespace SysNetMon
open Bytes Json KeyedMap Window

def alertPayload? : ServerEvent → Option Json
  | .alert data => some (alertRecord data)
  | _ => none

def ruleItems? : ServerEvent → Option Json
  | .rules items => some (.arr (items.map ruleRecord))
  | _ => none

/-- What an event adds to the chat feed, at a clock reading. -/
def feedEntry (now : Bytes) : ServerEvent → List Json
  | .chat message => [chatEntry message.sender message.text message.timestamp]
  | .ack message => [chatEntry (ascii "ack") message now]
  | .error message => [chatEntry (ascii "error") message now]
  | _ => []

/-- The merged stream of chat, ack and error events. -/
def chatFeed (outside : ℕ → Bytes × AwsCall) : List ServerEvent → List Json
  | [] => []
  | event :: events => feedEntry (outside 0).1 event ++ chatFeed (fun i => outside (i + 1)) events

def recordsStep (counts : MetricSnapshot → Bool) (records : List MetricSnapshot) : ServerEvent → List MetricSnapshot
  | .snapshot _ latest => ordered latest
  | .metric metric => if counts metric then records ++ [metric] else records
  | _ => records

/-- The records since the last snapshot, with its own: those of metric events
are the ones that count. -/
def recordsSince (counts : MetricSnapshot → Bool) (events : List ServerEvent) : List MetricSnapshot :=
  events.foldl (recordsStep counts) []

/-- The connector as `__init__` leaves it. -/
def AlertConnector.init (publisher : AwsAlertPublisher) : AlertConnector :=
  { state := { aws := publisher.last_result }, publisher }

/-- The views after the events: the last alerts and feed entries, the last list
of rules, the last record of each host since the last snapshot, and one upload
for each alert with the last result. -/
structure Views (counts : MetricSnapshot → Bool) (publisher : AwsAlertPublisher) (outside : ℕ → Bytes × AwsCall)
    (events : List ServerEvent) (last : AlertConnector) : Prop where
  alerts : last.state.alerts = (events.filterMap alertPayload?).rtake 50
  chat : last.state.chat = (chatFeed outside events).rtake 80
  rules : last.state.rules = (events.filterMap ruleItems?).getLastD (.arr [])
  metrics : ∀ host, last.state.metrics.lookup host =
    ((recordsSince counts events).filter fun metric => metric.host = host).getLast?.map metricRecord
  uploads : last.uploads.map Prod.fst = events.filterMap alertPayload?
  aws : last.state.aws = (last.uploads.map Prod.snd).getLastD publisher.last_result

/-- What an event of the server makes of the connector. -/
def AlertConnector.after (python : PythonText) (connector : AlertConnector) (now : Bytes) (call : AwsCall)
    (event : ServerEvent) : AlertConnector :=
  match alertPayload? event with
  | some alert =>
    let (publisher, result) := connector.publisher.upload_alert python call alert
    ⟨connector.state.after now result event, publisher, connector.uploads ++ [(alert, result)]⟩
  | none => { connector with state := connector.state.after now .null event }

theorem alert?_eq (event : ServerEvent) : alert? event.toObject = alertPayload? event := by
  cases event <;> rfl

theorem AlertConnector.on_event_toObject (python : PythonText) (connector : AlertConnector) (now : Bytes)
    (call : AwsCall) (event : ServerEvent) :
    connector.on_event python now call event.toObject = .ok (connector.after python now call event) := by
  unfold on_event AlertConnector.after
  rw [alert?_eq]
  cases alertPayload? event with
  | none => rw [handle_event_toObject]; rfl
  | some alert => dsimp only; rw [handle_event_toObject]; rfl

/-- What an event makes of each view. -/
theorem AlertConnector.after_views (python : PythonText) (connector : AlertConnector) (now : Bytes) (call : AwsCall)
    (event : ServerEvent) (short : connector.state.alerts.length ≤ 50 ∧ connector.state.chat.length ≤ 80) :
    let next := connector.after python now call event
    next.state.alerts = (connector.state.alerts ++ (alertPayload? event).toList).rtake 50 ∧
      next.state.chat = (connector.state.chat ++ feedEntry now event).rtake 80 ∧
      next.state.rules = (ruleItems? event).getD connector.state.rules ∧
      next.state.metrics = metricsAfter connector.state.metrics event ∧
      ∃ results, next.uploads = connector.uploads ++ results ∧ results.map Prod.fst = (alertPayload? event).toList ∧
        next.state.aws = (results.map Prod.snd).getLastD connector.state.aws := by
  have alerts : connector.state.alerts = (connector.state.alerts ++ []).rtake 50 := by
    rw [List.append_nil, rtake_of_length_le short.1]
  have chat : connector.state.chat = (connector.state.chat ++ []).rtake 80 := by
    rw [List.append_nil, rtake_of_length_le short.2]
  cases event with
  | alert data => exact ⟨rfl, chat, rfl, rfl, [_], rfl, rfl, rfl⟩
  | chat | ack | error => exact ⟨alerts, rfl, rfl, rfl, [], (List.append_nil _).symm, rfl, rfl⟩
  | _ => exact ⟨alerts, chat, rfl, rfl, [], (List.append_nil _).symm, rfl, rfl⟩

/-- The views after the events, from any connector whose lists are short enough. -/
theorem AlertConnector.on_events_views (python : PythonText) (connector : AlertConnector)
    (outside : ℕ → Bytes × AwsCall) (events : List ServerEvent)
    (short : connector.state.alerts.length ≤ 50 ∧ connector.state.chat.length ≤ 80) :
    ∃ last, connector.on_events python outside (events.map ServerEvent.toObject) = .ok last ∧
      last.state.alerts = (connector.state.alerts ++ events.filterMap alertPayload?).rtake 50 ∧
      last.state.chat = (connector.state.chat ++ chatFeed outside events).rtake 80 ∧
      last.state.rules = (events.filterMap ruleItems?).getLastD connector.state.rules ∧
      last.state.metrics = events.foldl metricsAfter connector.state.metrics ∧
      ∃ results, last.uploads = connector.uploads ++ results ∧
        results.map Prod.fst = events.filterMap alertPayload? ∧
        last.state.aws = (results.map Prod.snd).getLastD connector.state.aws := by
  induction events generalizing connector outside with
  | nil =>
    refine ⟨connector, rfl, ?_, ?_, rfl, rfl, [], (List.append_nil _).symm, rfl, rfl⟩
    · rw [List.filterMap_nil, List.append_nil, rtake_of_length_le short.1]
    · rw [chatFeed, List.append_nil, rtake_of_length_le short.2]
  | cons event events ih =>
    obtain ⟨alerts, chat, rules, metrics, results, uploads, values, aws⟩ :=
      connector.after_views python (outside 0).1 (outside 0).2 event short
    have short' : (connector.after python (outside 0).1 (outside 0).2 event).state.alerts.length ≤ 50 ∧
        (connector.after python (outside 0).1 (outside 0).2 event).state.chat.length ≤ 80 := by
      rw [alerts, chat, length_rtake, length_rtake]
      exact ⟨min_le_left _ _, min_le_left _ _⟩
    obtain ⟨last, run, alerts', chat', rules', metrics', results', uploads', values', aws'⟩ :=
      ih (connector.after python (outside 0).1 (outside 0).2 event) (fun i => outside (i + 1)) short'
    refine ⟨last, ?_, ?_, ?_, ?_, ?_, results ++ results', ?_, ?_, ?_⟩
    · rw [List.map_cons, on_events, on_event_toObject]
      exact run
    · rw [alerts', alerts, rtake_append, List.append_assoc, Window.filterMap_cons]
    · rw [chat', chat, rtake_append, List.append_assoc, chatFeed]
    · rw [rules', rules, Window.filterMap_cons, getLastD_append]
      cases ruleItems? event <;> rfl
    · rw [metrics', metrics, List.foldl_cons]
    · rw [uploads', uploads, List.append_assoc]
    · rw [List.map_append, values, values', Window.filterMap_cons]
    · rw [aws', aws, List.map_append, getLastD_append]

/-- An event keeps the dashboard's metrics the last records. -/
theorem lookup_metricsAfter {metrics : AList fun _ : Bytes => Json} {records : List MetricSnapshot}
    (shows : ∀ host, metrics.lookup host =
      ((records.filter fun metric => metric.host = host).getLast?).map metricRecord)
    (event : ServerEvent) (host : Bytes) :
    (metricsAfter metrics event).lookup host =
      (((recordsStep (fun metric => metric.host ≠ []) records event).filter
        fun metric => metric.host = host).getLast?).map metricRecord := by
  cases event with
  | snapshot now latest => exact lookup_fill_last (ordered latest) host
  | metric metric =>
    rw [metricsAfter, recordsStep]
    by_cases empty : metric.host = []
    · rw [if_pos empty, if_neg (by simp [empty]), shows]
    · rw [if_neg empty, if_pos (by simp [empty])]
      exact lookup_insert_last shows metric host
  | _ => exact shows host

theorem lookup_foldl_metricsAfter (events : List ServerEvent) (host : Bytes) :
    (events.foldl metricsAfter ∅).lookup host =
      (((recordsSince (fun metric => metric.host ≠ []) events).filter
        fun metric => metric.host = host).getLast?).map metricRecord := by
  induction events using List.reverseRecOn generalizing host with
  | nil => rfl
  | append_singleton events event ih =>
    rw [recordsSince, List.foldl_append, List.foldl_append]
    exact lookup_metricsAfter ih event host

/-- After any events of the server: the views, where a metric event counts if
its host is not empty. -/
theorem dashboard_views (python : PythonText) (publisher : AwsAlertPublisher) (outside : ℕ → Bytes × AwsCall)
    (events : List ServerEvent) :
    ∃ last, (AlertConnector.init publisher).on_events python outside (events.map ServerEvent.toObject) = .ok last ∧
      Views (fun metric => metric.host ≠ []) publisher outside events last := by
  obtain ⟨last, run, alerts, chat, rules, metrics, results, uploads, values, aws⟩ :=
    (AlertConnector.init publisher).on_events_views python outside events ⟨Nat.zero_le _, Nat.zero_le _⟩
  rw [AlertConnector.init] at alerts chat uploads
  rw [List.nil_append] at alerts chat uploads
  refine ⟨last, run, alerts, chat, rules, fun host => ?_, by rw [uploads, values], by rw [aws, uploads]; rfl⟩
  rw [metrics]
  exact lookup_foldl_metricsAfter events host

/-- A metric event with an empty host is not kept. -/
theorem empty_host_not_in_views :
    ¬ ∀ (python : PythonText) (publisher : AwsAlertPublisher) (outside : ℕ → Bytes × AwsCall)
        (events : List ServerEvent),
      ∃ last, (AlertConnector.init publisher).on_events python outside (events.map ServerEvent.toObject) = .ok last ∧
        Views (fun _ => true) publisher outside events last := by
  intro views
  let python : PythonText := ⟨fun _ => [], fun _ => [], fun _ => []⟩
  let publisher : AwsAlertPublisher :=
    { boto3 := false, bucket := [], topic_arn := [], keyPrefix := [], last_result := .null }
  let outside : ℕ → Bytes × AwsCall := fun _ => ([], { now := [], time := 0 })
  obtain ⟨last, run, shows⟩ := views python publisher outside [.metric {}]
  rw [List.map_singleton, AlertConnector.on_events, AlertConnector.on_event_toObject] at run
  cases run
  have shown : none = some (metricRecord {}) := shows.metrics []
  cases shown

end SysNetMon
