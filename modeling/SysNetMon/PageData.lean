import SysNetMon.AlertDelivery
import SysNetMon.ChartTraces
import SysNetMon.CleanRuns
import SysNetMon.DashboardMetrics
import SysNetMon.DashboardRules
import SysNetMon.Extraction

/-!
What the page reads of the dashboard's state: after any events whose strings are
text it finds what it needs, and it shows what the server holds.
-/

namespace SysNetMon
open Bytes Json PropertyOrder Window

/-- A property that is a string of text. -/
def textAt (name : String) (record : Json) : Option (List Char) :=
  match record with
  | .obj members =>
    match member (ascii name) members with
    | some (.str s) => Utf8.decode s
    | _ => none
  | _ => none

def numberAt (name : String) (record : Json) : Option ℚ :=
  match record with
  | .obj members =>
    match member (ascii name) members with
    | some (.num q) => some q
    | _ => none
  | _ => none

/-- What `appendHistory` and `renderHosts` read of a metric, where they find values of the types they work with. -/
def PageMetric.read (record : Json) : Option PageMetric := do
  return {
    host := ← textAt "host" record
    timestamp := ← textAt "timestamp" record
    cpu_percent := ← numberAt "cpu_percent" record
    memory_percent := ← numberAt "memory_percent" record
    disk_percent := ← numberAt "disk_percent" record
    network_rx_kbps := ← numberAt "network_rx_kbps" record
    network_tx_kbps := ← numberAt "network_tx_kbps" record
    memory_used_mb := ← numberAt "memory_used_mb" record
    memory_total_mb := ← numberAt "memory_total_mb" record
    disk_used_mb := ← numberAt "disk_used_mb" record
    disk_total_mb := ← numberAt "disk_total_mb" record }

def PageRule.read (record : Json) : Option PageRule := do
  return {
    command := ← textAt "command" record
    metric_key := ← textAt "metric_key" record
    threshold := ← numberAt "threshold" record }

def PageAlert.read (record : Json) : Option PageAlert := do
  return {
    display_metric := ← textAt "display_metric" record
    host := ← textAt "host" record
    message := ← textAt "message" record
    timestamp := ← textAt "timestamp" record
    threshold := ← numberAt "threshold" record }

def PageChat.read (record : Json) : Option PageChat := do
  return {
    sender := ← textAt "from" record
    text := ← textAt "text" record
    timestamp := ← textAt "timestamp" record }

/-- The characters of a string of the server. -/
def chars (s : Bytes) : List Char := (Utf8.decode s).getD []

/-- `Object.keys(metrics)`, of an object that `jsonify` wrote with its keys in some `order`. -/
def objectKeys (order : List Bytes → List Bytes) (keys : List Bytes) : List Bytes :=
  ownKeys (fun key => arrayIndex (chars key)) (order keys)

/-- `Object.values(metrics)` -/
def objectValues (order : List Bytes → List Bytes) (metrics : AList fun _ : Bytes => Json) : List Json :=
  (objectKeys order metrics.keys).filterMap metrics.lookup

/-- `state.rules || []` -/
def rulesOf : Json → Option (List Json)
  | .arr items => some items
  | .null => some []
  | .bool false => some []
  | .str [] => some []
  | .num q => if q = 0 then some [] else none
  | _ => none

/-- What `refreshState` reads of a state. -/
def PageState.read (order : List Bytes → List Bytes) (state : DashboardState) : Option PageState := do
  return {
    metrics := ← (objectValues order state.metrics).mapM PageMetric.read
    rules := ← (← rulesOf state.rules).mapM PageRule.read
    alerts := ← state.alerts.mapM PageAlert.read
    chat := ← state.chat.mapM PageChat.read }

def pageMetric (metric : MetricSnapshot) : PageMetric where
  host := chars metric.host
  timestamp := chars metric.timestamp
  cpu_percent := rounded metric.cpu_percent
  memory_percent := rounded metric.memory_percent
  disk_percent := rounded metric.disk_percent
  network_rx_kbps := rounded metric.network_rx_kbps
  network_tx_kbps := rounded metric.network_tx_kbps
  memory_used_mb := metric.memory_used_mb.toInt
  memory_total_mb := metric.memory_total_mb.toInt
  disk_used_mb := metric.disk_used_mb.toInt
  disk_total_mb := metric.disk_total_mb.toInt

def pageRule (rule : AlertRule) : PageRule := ⟨chars rule.raw_command, chars rule.metric_key, rounded rule.threshold⟩

def pageAlert (alert : AlertEvent) : PageAlert :=
  ⟨chars alert.display_metric, chars alert.host, chars alert.message, chars alert.timestamp, rounded alert.threshold⟩

section Records

theorem decode_valid {s : Bytes} (valid : Utf8.Valid s) : Utf8.decode s = some (chars s) := by
  obtain ⟨text, rfl⟩ := valid
  rw [chars, Utf8.decode_encode]
  rfl

theorem textAt_eq {name : String} {members : List (Bytes × Json)} {s : Bytes}
    (found : member (ascii name) members = some (.str s)) (valid : Utf8.Valid s) :
    textAt name (.obj members) = some (chars s) := by
  rw [textAt, found]
  exact decode_valid valid

theorem numberAt_eq {name : String} {members : List (Bytes × Json)} {q : ℚ}
    (found : member (ascii name) members = some (.num q)) : numberAt name (.obj members) = some q := by
  rw [numberAt, found]

theorem meaning_fixedDoc (value : Double) : meaning (fixedDoc value) = .num (rounded value) := by
  rw [fixedDoc, meaning, rounded]
  simp only [decide_eq_true_eq]

theorem PageMetric.read_metricRecord {metric : MetricSnapshot} (host : Utf8.Valid metric.host)
    (timestamp : Utf8.Valid metric.timestamp) : PageMetric.read (metricRecord metric) = some (pageMetric metric) := by
  simp only [metricRecord, metricDoc, meaning, meaningMembers, meaning_fixedDoc]
  rw [PageMetric.read, textAt_eq rfl host, textAt_eq rfl timestamp, numberAt_eq rfl]
  rfl

theorem PageRule.read_ruleRecord {rule : AlertRule} (command : Utf8.Valid rule.raw_command)
    (metric_key : Utf8.Valid rule.metric_key) : PageRule.read (ruleRecord rule) = some (pageRule rule) := by
  simp only [ruleRecord, ruleDoc, meaning, meaningMembers, meaning_fixedDoc]
  rw [PageRule.read, textAt_eq rfl command, textAt_eq rfl metric_key, numberAt_eq rfl]
  rfl

theorem PageAlert.read_alertDoc {alert : AlertEvent} (host : Utf8.Valid alert.host)
    (timestamp : Utf8.Valid alert.timestamp) (display_metric : Utf8.Valid alert.display_metric)
    (message : Utf8.Valid alert.message) : PageAlert.read (meaning (alertDoc alert)) = some (pageAlert alert) := by
  simp only [alertDoc, meaning, meaningMembers, meaning_fixedDoc]
  rw [PageAlert.read, textAt_eq rfl display_metric, textAt_eq rfl host, textAt_eq rfl message, textAt_eq rfl timestamp,
    numberAt_eq rfl]
  rfl

theorem PageChat.read_chatEntry {sender text timestamp : Bytes} (valid : Utf8.Valid sender) (valid' : Utf8.Valid text)
    (valid'' : Utf8.Valid timestamp) :
    PageChat.read (chatEntry sender text timestamp) = some ⟨chars sender, chars text, chars timestamp⟩ := by
  rw [chatEntry, PageChat.read, textAt_eq rfl valid, textAt_eq rfl valid', textAt_eq rfl valid'']
  rfl

end Records

section Lists
variable {α β : Type} {f : α → Option β} {l : List α} {r : List β}

theorem mapM_eq_some_iff : l.mapM f = some r ↔ List.Forall₂ (fun a b => f a = some b) l r := by
  induction l generalizing r with
  | nil =>
    rw [List.mapM_nil, List.forall₂_nil_left_iff]
    exact Option.some_inj.trans eq_comm
  | cons a l ih =>
    rw [List.mapM_cons, List.forall₂_cons_left_iff]
    constructor
    · intro taken
      obtain ⟨b, first, later⟩ := Option.bind_eq_some_iff.mp taken
      obtain ⟨bs, rest, is⟩ := Option.bind_eq_some_iff.mp later
      exact ⟨b, bs, first, ih.mp rest, (Option.some.inj is).symm⟩
    · rintro ⟨b, bs, first, rest, rfl⟩
      rw [first, ih.mpr rest]
      rfl

theorem isSome_of_forall₂ (all : List.Forall₂ (fun a b => f a = some b) l r) : ∀ a ∈ l, (f a).isSome = true := by
  induction all with
  | nil => exact List.forall_mem_nil _
  | cons first _ ih => exact List.forall_mem_cons.mpr ⟨Option.isSome_of_eq_some first, ih⟩

theorem exists_forall₂ (all : ∀ a ∈ l, (f a).isSome = true) : ∃ r, List.Forall₂ (fun a b => f a = some b) l r := by
  induction l with
  | nil => exact ⟨[], .nil⟩
  | cons a l ih =>
    rw [List.forall_mem_cons] at all
    obtain ⟨b, first⟩ := Option.isSome_iff_exists.mp all.1
    obtain ⟨r, rest⟩ := ih all.2
    exact ⟨b :: r, .cons first rest⟩

theorem forall₂_map {γ : Type} {g : γ → α} {h : γ → β} {items : List γ}
    (all : ∀ item ∈ items, f (g item) = some (h item)) :
    List.Forall₂ (fun a b => f a = some b) (items.map g) (items.map h) := by
  rw [List.forall₂_map_left_iff, List.forall₂_map_right_iff, List.forall₂_same]
  exact all

theorem forall₂_rtake (n : ℕ) (all : List.Forall₂ (fun a b => f a = some b) l r) :
    List.Forall₂ (fun a b => f a = some b) (l.rtake n) (r.rtake n) := by
  rw [List.rtake, List.rtake, all.length_eq]
  exact List.forall₂_drop _ all

end Lists

/-- The page shows a state: it reads each of its entries from that of the state. -/
structure PageState.Shows (order : List Bytes → List Bytes) (page : PageState) (state : DashboardState) : Prop where
  metrics : List.Forall₂ (fun record card => PageMetric.read record = some card) (objectValues order state.metrics)
    page.metrics
  rules : ∃ items, rulesOf state.rules = some items ∧
    List.Forall₂ (fun record rule => PageRule.read record = some rule) items page.rules
  alerts : List.Forall₂ (fun record alert => PageAlert.read record = some alert) state.alerts page.alerts
  chat : List.Forall₂ (fun record item => PageChat.read record = some item) state.chat page.chat

section Shows
variable {order : List Bytes → List Bytes} {page : PageState} {state : DashboardState}

theorem PageState.read_eq_some_iff : PageState.read order state = some page ↔ page.Shows order state := by
  simp only [PageState.read, Option.bind_eq_bind, Option.bind_eq_some_iff, mapM_eq_some_iff]
  constructor
  · rintro ⟨metrics, first, items, is, rules, second, alerts, third, chat, fourth, made⟩
    cases made
    exact ⟨first, ⟨items, is, second⟩, third, fourth⟩
  · rintro ⟨first, ⟨items, is, second⟩, third, fourth⟩
    exact ⟨_, first, items, is, _, second, _, third, _, fourth, rfl⟩

variable (jsonify : ∀ keys, (order keys).Perm keys)
include jsonify

theorem perm_objectKeys (keys : List Bytes) : (objectKeys order keys).Perm keys :=
  (perm_ownKeys _).trans (jsonify keys)

theorem mem_objectValues {metrics : AList fun _ : Bytes => Json} {record : Json} :
    record ∈ objectValues order metrics ↔ ∃ host, metrics.lookup host = some record := by
  rw [objectValues, List.mem_filterMap]
  refine exists_congr fun host => and_iff_right_of_imp fun found => ?_
  rw [(perm_objectKeys jsonify _).mem_iff]
  exact AList.mem_keys.mp (AList.lookup_isSome.mp (Option.isSome_of_eq_some found))

/-- Before any event the page shows nothing. -/
theorem PageState.read_initial (aws : Json) : PageState.read order { aws } = some ⟨[], [], [], []⟩ := by
  have none : objectValues order ∅ = [] := List.eq_nil_iff_forall_not_mem.mpr fun record member => by
    obtain ⟨host, found⟩ := (mem_objectValues jsonify).mp member
    simp at found
  refine PageState.read_eq_some_iff.mpr ⟨?_, ⟨[], rfl, .nil⟩, .nil, .nil⟩
  change List.Forall₂ _ (objectValues order ∅) []
  rw [none]
  exact .nil

end Shows

/-- Every string of the event is text. -/
def ServerEvent.Text (event : ServerEvent) : Prop := ∀ s ∈ strings event.toDoc, Utf8.Valid s

/-- What an event adds to the alert feed. -/
def pageAlerts : ServerEvent → List PageAlert
  | .alert data => [pageAlert data]
  | _ => []

/-- What an event adds to the chat feed, at a clock reading. -/
def pageChat (now : Bytes) : ServerEvent → List PageChat
  | .chat message => [⟨chars message.sender, chars message.text, chars message.timestamp⟩]
  | .ack message => [⟨chars (ascii "ack"), chars message, chars now⟩]
  | .error message => [⟨chars (ascii "error"), chars message, chars now⟩]
  | _ => []

section After
variable {order : List Bytes → List Bytes} {page : PageState} {state : DashboardState} {event : ServerEvent}
  {now : Bytes}

theorem strings_of_mem {d : Doc} {items : List Doc} (member : d ∈ items) :
    ∀ s ∈ strings d, s ∈ strings (.arr items) := by
  induction items with
  | nil => cases member
  | cons first items ih =>
    intro s inside
    rcases List.mem_cons.mp member with rfl | later
    · exact List.mem_append_left _ inside
    · exact List.mem_append_right _ (ih later s inside)

theorem strings_metric (metric : MetricSnapshot) :
    metric.host ∈ strings (metricDoc metric) ∧ metric.timestamp ∈ strings (metricDoc metric) := by
  simp [metricDoc, strings, stringsMembers]

theorem strings_rule (rule : AlertRule) :
    rule.raw_command ∈ strings (ruleDoc rule) ∧ rule.metric_key ∈ strings (ruleDoc rule) := by
  simp [ruleDoc, strings, stringsMembers]

theorem ServerEvent.Text.metric {data : MetricSnapshot} (text : (ServerEvent.metric data).Text) :
    Utf8.Valid data.host ∧ Utf8.Valid data.timestamp := by
  have inside : ∀ s ∈ strings (metricDoc data), s ∈ strings (ServerEvent.metric data).toDoc := fun s member => by
    simp [ServerEvent.toDoc, strings, stringsMembers, member]
  exact ⟨text _ (inside _ (strings_metric data).1), text _ (inside _ (strings_metric data).2)⟩

theorem ServerEvent.Text.snapshot {now : Tm} {latest : AList fun _ : Bytes => MetricSnapshot}
    (text : (ServerEvent.snapshot now latest).Text) :
    ∀ metric ∈ ordered latest, Utf8.Valid metric.host ∧ Utf8.Valid metric.timestamp := by
  intro metric member
  have inside : ∀ s ∈ strings (metricDoc metric), s ∈ strings (ServerEvent.snapshot now latest).toDoc := fun s own => by
    have inArray := strings_of_mem (List.mem_map_of_mem (f := metricDoc) member) s own
    simp [ServerEvent.toDoc, strings, stringsMembers] at inArray ⊢
    simp [inArray]
  exact ⟨text _ (inside _ (strings_metric metric).1), text _ (inside _ (strings_metric metric).2)⟩

theorem ServerEvent.Text.rules {items : List AlertRule} (text : (ServerEvent.rules items).Text) :
    ∀ rule ∈ items, Utf8.Valid rule.raw_command ∧ Utf8.Valid rule.metric_key := by
  intro rule member
  have inside : ∀ s ∈ strings (ruleDoc rule), s ∈ strings (ServerEvent.rules items).toDoc := fun s own => by
    have inArray := strings_of_mem (List.mem_map_of_mem (f := ruleDoc) member) s own
    simp [ServerEvent.toDoc, strings, stringsMembers] at inArray ⊢
    simp [inArray]
  exact ⟨text _ (inside _ (strings_rule rule).1), text _ (inside _ (strings_rule rule).2)⟩

theorem ServerEvent.Text.alert {data : AlertEvent} (text : (ServerEvent.alert data).Text) :
    PageAlert.read (meaning (alertDoc data)) = some (pageAlert data) := by
  have inside : ∀ s ∈ [data.host, data.timestamp, data.display_metric, data.message],
      s ∈ strings (ServerEvent.alert data).toDoc := by simp [ServerEvent.toDoc, alertDoc, strings, stringsMembers]
  simp only [List.forall_mem_cons] at inside
  exact PageAlert.read_alertDoc (text _ inside.1) (text _ inside.2.1) (text _ inside.2.2.1) (text _ inside.2.2.2.1)

/-- All records stay readable. -/
theorem read_metricsAfter {metrics : AList fun _ : Bytes => Json} (text : event.Text)
    (before : ∀ host record, metrics.lookup host = some record → (PageMetric.read record).isSome = true) :
    ∀ host record, (metricsAfter metrics event).lookup host = some record → (PageMetric.read record).isSome = true := by
  intro host record found
  cases event with
  | snapshot now latest =>
    rw [metricsAfter, KeyedMap.lookup_fill_last] at found
    obtain ⟨metric, last, rfl⟩ := Option.map_eq_some_iff.mp found
    have member := List.mem_of_mem_filter (List.mem_of_getLast? last)
    obtain ⟨valid, valid'⟩ := text.snapshot metric member
    rw [PageMetric.read_metricRecord valid valid']
    rfl
  | metric data =>
    rw [metricsAfter] at found
    split at found
    · exact before host record found
    · by_cases same : host = data.host
      · rw [same, AList.lookup_insert] at found
        rw [← Option.some.inj found, PageMetric.read_metricRecord text.metric.1 text.metric.2]
        rfl
      · rw [AList.lookup_insert_ne same] at found
        exact before host record found
  | _ => exact before host record found

theorem PageState.Shows.alerts_after (shows : page.Shows order state) (short : page.alerts.length ≤ 50)
    (text : event.Text) (now : Bytes) (result : Json) :
    List.Forall₂ (fun record alert => PageAlert.read record = some alert) (state.after now result event).alerts
      ((page.alerts ++ pageAlerts event).rtake 50) := by
  have kept : List.Forall₂ (fun record alert => PageAlert.read record = some alert) state.alerts
      ((page.alerts ++ []).rtake 50) := by
    rw [List.append_nil, rtake_of_length_le short]
    exact shows.alerts
  cases event with
  | alert data => exact forall₂_rtake 50 (List.rel_append shows.alerts (.cons text.alert .nil))
  | _ => exact kept

theorem PageState.Shows.chat_after (shows : page.Shows order state) (short : page.chat.length ≤ 80) (text : event.Text)
    (clock : Utf8.Valid now) (result : Json) :
    List.Forall₂ (fun record item => PageChat.read record = some item) (state.after now result event).chat
      ((page.chat ++ pageChat now event).rtake 80) := by
  have ascii_valid (name : String) (printable : Printable (ascii name)) : Utf8.Valid (ascii name) :=
    (sound_of_printable printable).2
  have kept : List.Forall₂ (fun record item => PageChat.read record = some item) state.chat
      ((page.chat ++ []).rtake 80) := by
    rw [List.append_nil, rtake_of_length_le short]
    exact shows.chat
  cases event with
  | chat message =>
    have inside : ∀ s ∈ [message.sender, message.text, message.timestamp],
        s ∈ Json.strings (ServerEvent.chat message).toDoc := by
      simp [ServerEvent.toDoc, Json.strings, stringsMembers]
    simp only [List.forall_mem_cons] at inside
    have read := PageChat.read_chatEntry (text _ inside.1) (text _ inside.2.1) (text _ inside.2.2.1)
    exact forall₂_rtake 80 (List.rel_append shows.chat (.cons read .nil))
  | ack message =>
    have inside : message ∈ Json.strings (ServerEvent.ack message).toDoc := by
      simp [ServerEvent.toDoc, Json.strings, stringsMembers]
    have read := PageChat.read_chatEntry (ascii_valid "ack" (by decide)) (text _ inside) clock
    exact forall₂_rtake 80 (List.rel_append shows.chat (.cons read .nil))
  | error message =>
    have inside : message ∈ Json.strings (ServerEvent.error message).toDoc := by
      simp [ServerEvent.toDoc, Json.strings, stringsMembers]
    have read := PageChat.read_chatEntry (ascii_valid "error" (by decide)) (text _ inside) clock
    exact forall₂_rtake 80 (List.rel_append shows.chat (.cons read .nil))
  | _ => exact kept

theorem PageState.Shows.rules_after (shows : page.Shows order state) (text : event.Text) (now : Bytes) (result : Json) :
    ∃ items rules, rulesOf (state.after now result event).rules = some items ∧
      List.Forall₂ (fun record rule => PageRule.read record = some rule) items rules := by
  cases event with
  | rules items =>
    exact ⟨_, _, rfl, forall₂_map fun rule member =>
      PageRule.read_ruleRecord (text.rules rule member).1 (text.rules rule member).2⟩
  | _ =>
    obtain ⟨items, is, read⟩ := shows.rules
    exact ⟨items, page.rules, is, read⟩

/-- An event whose strings are text leaves a state that the page shows, with what
it adds to the feeds. -/
theorem PageState.Shows.after (jsonify : ∀ keys, (order keys).Perm keys) (shows : page.Shows order state)
    (short : page.alerts.length ≤ 50 ∧ page.chat.length ≤ 80)
    (text : event.Text) (clock : Utf8.Valid now) (result : Json) :
    ∃ next : PageState, next.Shows order (state.after now result event) ∧
      next.alerts = (page.alerts ++ pageAlerts event).rtake 50 ∧
      next.chat = (page.chat ++ pageChat now event).rtake 80 := by
  have metrics : (state.after now result event).metrics = metricsAfter state.metrics event := by cases event <;> rfl
  have readable : ∀ host record, state.metrics.lookup host = some record → (PageMetric.read record).isSome = true :=
    fun host record found => isSome_of_forall₂ shows.metrics record ((mem_objectValues jsonify).mpr ⟨host, found⟩)
  obtain ⟨cards, first⟩ := @exists_forall₂ _ _ PageMetric.read
    (objectValues order (state.after now result event).metrics) fun record member => by
      obtain ⟨host, found⟩ := (mem_objectValues jsonify).mp member
      exact read_metricsAfter text readable host record (metrics ▸ found)
  obtain ⟨items, rules, is, read⟩ := shows.rules_after text now result
  exact ⟨⟨cards, rules, _, _⟩, ⟨first, ⟨items, is, read⟩, shows.alerts_after short.1 text now result,
    shows.chat_after short.2 text clock result⟩, rfl, rfl⟩

/-- What some events add to the chat feed, the clock readings given by `outside`. -/
def pageChats (outside : ℕ → Bytes × Json) : List ServerEvent → List PageChat
  | [] => []
  | event :: events => pageChat (outside 0).1 event ++ pageChats (fun i => outside (i + 1)) events

/-- After events whose strings are text the page shows the state, and the feeds
hold the last items that they brought. -/
theorem PageState.Shows.afterAll (jsonify : ∀ keys, (order keys).Perm keys) (shows : page.Shows order state)
    (short : page.alerts.length ≤ 50 ∧ page.chat.length ≤ 80)
    {events : List ServerEvent} (text : ∀ event ∈ events, event.Text) {outside : ℕ → Bytes × Json}
    (clock : ∀ i, Utf8.Valid (outside i).1) :
    ∃ next : PageState, next.Shows order (state.afterAll outside events) ∧
      next.alerts = (page.alerts ++ events.flatMap pageAlerts).rtake 50 ∧
      next.chat = (page.chat ++ pageChats outside events).rtake 80 := by
  induction events generalizing page state outside with
  | nil =>
    refine ⟨page, shows, ?_, ?_⟩
    · rw [List.flatMap_nil, List.append_nil, rtake_of_length_le short.1]
    · rw [pageChats, List.append_nil, rtake_of_length_le short.2]
  | cons event events ih =>
    rw [List.forall_mem_cons] at text
    obtain ⟨next, shown, alerts, chat⟩ := PageState.Shows.after jsonify shows short text.1 (clock 0) (outside 0).2
    have short' : next.alerts.length ≤ 50 ∧ next.chat.length ≤ 80 := by
      rw [alerts, chat, length_rtake, length_rtake]
      exact ⟨min_le_left _ _, min_le_left _ _⟩
    obtain ⟨last, shown', alerts', chat'⟩ := ih shown short' text.2 fun i => clock (i + 1)
    refine ⟨last, shown', ?_, ?_⟩
    · rw [alerts', alerts, rtake_append, List.append_assoc, List.flatMap_cons]
    · rw [chat', chat, rtake_append, List.append_assoc, pageChats]

end After

section Server
variable {platform : Platform} {server : MonitorServer} {log : List Entry}

/-- What is sent in a run that receives only sound lines has only strings of text. -/
theorem ServerRun.wire_text (run : ServerRun platform server log)
    (lines : ∀ h, .handled h ∈ log → ∀ client, h.before.clients_[h.index]? = some client →
      LineSound platform client h.line) (fd : ℕ) : ∀ event ∈ wire fd log, event.Text := by
  intro event member
  obtain ⟨h, inLog, output, inOutputs, rfl⟩ := mem_wire member
  exact fun s inside => ((run.sound lines).2 h inLog output inOutputs s inside).2

/-- The cards of the server's metrics, in the order of their hosts. -/
def pageMetrics (latest : AList fun _ : Bytes => MetricSnapshot) : List PageMetric := (ordered latest).map pageMetric

theorem length_pageMetrics (latest : AList fun _ : Bytes => MetricSnapshot) :
    (pageMetrics latest).length = latest.keys.length := by
  rw [pageMetrics, List.length_map, ordered, List.length_map, List.length_insertionSort, AList.keys, List.keys,
    List.length_map]

theorem keys_perm {β γ : Type} {a : AList fun _ : Bytes => β} {b : AList fun _ : Bytes => γ}
    (same : ∀ host, (a.lookup host).isSome = (b.lookup host).isSome) : a.keys.Perm b.keys := by
  rw [List.perm_ext_iff_of_nodup a.keys_nodup b.keys_nodup]
  intro host
  rw [← AList.mem_keys, ← AList.mem_keys, ← AList.lookup_isSome, ← AList.lookup_isSome, same]

/-- Looking up all keys of a map gives its cards. -/
theorem perm_pageMetrics {keys : List Bytes} {latest : AList fun _ : Bytes => MetricSnapshot}
    (perm : keys.Perm latest.keys) :
    (keys.filterMap fun host => (latest.lookup host).map pageMetric).Perm (pageMetrics latest) := by
  have entries : (latest.keys.filterMap fun host => (latest.lookup host).map pageMetric) =
      latest.entries.map fun entry => pageMetric entry.2 := by
    rw [AList.keys, List.keys, List.filterMap_map, ← List.filterMap_eq_map]
    refine List.filterMap_congr fun entry member => ?_
    rw [Function.comp_apply, AList.mem_lookup_iff.mpr member]
    rfl
  have sorted : (pageMetrics latest).Perm (latest.entries.map fun entry => pageMetric entry.2) := by
    rw [pageMetrics, ordered, List.map_map]
    exact (List.perm_insertionSort _ _).map _
  exact ((perm.filterMap _).trans (.of_eq entries)).trans sorted.symm

/-- Metrics that agree with the server's on every host are shown as the server's cards. -/
theorem shows_pageMetrics {order : List Bytes → List Bytes} (jsonify : ∀ keys, (order keys).Perm keys)
    {metrics : AList fun _ : Bytes => Json} {latest : AList fun _ : Bytes => MetricSnapshot}
    (agree : ∀ host, metrics.lookup host = (latest.lookup host).map metricRecord)
    (text : ∀ host metric, latest.lookup host = some metric → Utf8.Valid metric.host ∧ Utf8.Valid metric.timestamp) :
    ∃ cards, cards.Perm (pageMetrics latest) ∧
      List.Forall₂ (fun record card => PageMetric.read record = some card) (objectValues order metrics) cards := by
  have keys : (objectKeys order metrics.keys).Perm latest.keys :=
    (perm_objectKeys jsonify _).trans (keys_perm fun host => by rw [agree, Option.isSome_map])
  refine ⟨_, perm_pageMetrics keys, ?_⟩
  rw [objectValues]
  clear keys
  induction objectKeys order metrics.keys with
  | nil => exact .nil
  | cons host hosts ih =>
    cases found : latest.lookup host with
    | none =>
      have gone : metrics.lookup host = none := by rw [agree, found, Option.map_none]
      simp only [List.filterMap_cons, gone, found, Option.map_none]
      exact ih
    | some metric =>
      have here : metrics.lookup host = some (metricRecord metric) := by rw [agree, found, Option.map_some]
      simp only [List.filterMap_cons, here, found, Option.map_some]
      exact .cons (PageMetric.read_metricRecord (text host metric found).1 (text host metric found).2) ih

/-- What the page shows after a refresh: the charts, the markup of the four
containers, and the texts above them. -/
structure Screen where
  charts : List Chart
  containers : List (List Html.Piece)
  serverState : String
  hostCount : ℕ
  alertCount : ℕ

def PageState.screen (js : JavaScript) (connected : Bool) (object : HistoryObject) (state : PageState) : Screen where
  charts := renderCharts object
  containers := refreshState js state
  serverState := if connected then "Connected" else "Reconnecting"
  hostCount := state.metrics.length
  alertCount := state.alerts.length

/-- The whole of `refreshState`: where `appendHistory` raises an error nothing is shown. -/
def PageState.refresh (js : JavaScript) (connected : Bool) (object : HistoryObject) (state : PageState) :
    Except JsError (HistoryObject × Screen) := do
  let object ← object.refresh state.metrics
  return (object, state.screen js connected object)

/-- The screen shows the server: a card for each of its metrics, sorted by
`renderHosts`, its rules in order, the feeds with the newest item first, and in each
of the three charts a trace for each host. -/
structure Screen.Mirrors (screen : Screen) (js : JavaScript) (server : MonitorServer) (alerts : List PageAlert)
    (chat : List PageChat) : Prop where
  hosts : ∃ cards, cards.Perm (pageMetrics server.latest_metrics_) ∧ screen.containers = [renderHosts js cards,
    renderRules js (server.alert_rules_.map pageRule), renderFeed alerts.reverse (alertItem js),
    renderFeed chat.reverse chatItem]
  charts : screen.charts.length = 3 ∧ ∀ chart ∈ screen.charts, ∀ metric ∈ ordered server.latest_metrics_,
    chars metric.host ∈ chart.traces.map Trace.name
  hostCount : screen.hostCount = server.latest_metrics_.keys.length
  alertCount : screen.alertCount = alerts.length

/-- A refresh with hosts whose names an object does not inherit succeeds. -/
theorem PageState.refresh_of_plain (js : JavaScript) (connected : Bool) {polls : List PageMetric}
    {object : HistoryObject} (after : object.After polls) {page : PageState}
    (plain : ∀ metric ∈ page.metrics, metric.host ∉ objectPrototype) :
    ∃ next, page.refresh js connected object = .ok (next, page.screen js connected next) ∧
      next.After (polls ++ page.metrics) := by
  obtain ⟨next, refreshed, after'⟩ := after.refresh plain
  refine ⟨next, ?_, after'⟩
  rw [PageState.refresh, refreshed]
  rfl

section Page
variable {connection : ClientConnection} {outside : ℕ → Bytes × Json} {state : DashboardState} {page : PageState}
  {order : List Bytes → List Bytes} {object : HistoryObject} {polls : List PageMetric}

/-- The page of a dashboard that shows `page` at first, after what it was sent. -/
theorem ServerRun.page_after (run : ServerRun platform server log)
    (lines : ∀ h, .handled h ∈ log → ∀ client, h.before.clients_[h.index]? = some client →
      LineSound platform client h.line)
    (hosts : ∀ h metric, .handled h ∈ log → h.accepted platform = some metric →
      metric.host ≠ [] ∧ chars metric.host ∉ objectPrototype)
    (member : connection ∈ server.clients_) (role : connection.role = .Dashboard)
    (clock : ∀ i, Utf8.Valid (outside i).1) (jsonify : ∀ keys, (order keys).Perm keys) (shows : page.Shows order state)
    (short : page.alerts.length ≤ 50 ∧ page.chat.length ≤ 80) :
    ∃ next : PageState, next.Shows order (state.afterAll outside (wire connection.fd log)) ∧
      (∀ card ∈ next.metrics, card.host ∉ objectPrototype) ∧
      next.metrics.Perm (pageMetrics server.latest_metrics_) ∧ next.rules = server.alert_rules_.map pageRule ∧
      next.alerts = (page.alerts ++ (wire connection.fd log).flatMap pageAlerts).rtake 50 ∧
      next.chat = (page.chat ++ pageChats outside (wire connection.fd log)).rtake 80 := by
  have held := (run.sound lines).1
  obtain ⟨next, shown, alerts, chat⟩ :=
    PageState.Shows.afterAll jsonify shows short (run.wire_text lines connection.fd) clock
  have agree (host : Bytes) : (state.afterAll outside (wire connection.fd log)).metrics.lookup host =
      (server.latest_metrics_.lookup host).map metricRecord := by
    rw [DashboardState.afterAll_metrics]
    exact run.dashboard_agrees connection member role state.metrics host
      (Or.inr fun h metric inLog accepted => (hosts h metric inLog accepted).1)
  obtain ⟨cards, perm, read⟩ := shows_pageMetrics jsonify agree fun host metric found => by
    have sound := held.metrics _ (AList.mem_lookup_iff.mp found)
    exact ⟨sound.1.2, sound.2.2⟩
  refine ⟨⟨cards, server.alert_rules_.map pageRule, next.alerts, next.chat⟩,
    ⟨read, ⟨server.alert_rules_.map ruleRecord, ?_, ?_⟩, shown.alerts, shown.chat⟩, ?_, perm, rfl, alerts, chat⟩
  · rw [DashboardState.afterAll_rules, run.dashboard_rules connection member role state.rules]
    rfl
  · exact forall₂_map fun rule inRules =>
      PageRule.read_ruleRecord (held.rules rule inRules).1.2 (held.rules rule inRules).2.1.2
  · intro card inCards
    obtain ⟨metric, inServer, rfl⟩ := List.mem_map.mp (perm.subset inCards)
    obtain ⟨host, found⟩ := (mem_ordered metric).mp inServer
    obtain ⟨-, h, inLog, accepted⟩ := run.latest_accepted host metric found
    exact (hosts h metric inLog accepted).2

/-- A page that has the cards and the rules of the server shows the server. -/
theorem PageState.screen_mirrors (js : JavaScript) (connected : Bool)
    (perm : page.metrics.Perm (pageMetrics server.latest_metrics_))
    (rules : page.rules = server.alert_rules_.map pageRule) (after : object.After (polls ++ page.metrics)) :
    (page.screen js connected object).Mirrors js server page.alerts page.chat := by
  refine ⟨⟨page.metrics, perm, ?_⟩, ⟨rfl, fun chart shown metric inServer => ?_⟩, ?_, rfl⟩
  · rw [← rules]
    rfl
  · have inCards : pageMetric metric ∈ page.metrics := perm.symm.subset (List.mem_map_of_mem inServer)
    rw [(after.traces shown).1, HistoryObject.keys, mem_ownKeys, after.created, mem_firstSeen]
    exact ⟨_, List.mem_append_right polls inCards, rfl⟩
  · rw [← length_pageMetrics]
    exact perm.length_eq

end Page

end Server

end SysNetMon
