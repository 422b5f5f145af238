import SysNetMon.Dashboard
import SysNetMon.PythonText
import SysNetMon.Run
import SysNetMon.Text.Bytes
import SysNetMon.Text.Framing

/-!
The upload of alerts: `upload_alert`, and `_handle_event` with the publisher that it calls.
-/

namespace SysNetMon
open Bytes Decimal Json KeyedMap PyStr

/-- What Python writes for a number, for a value that is not a string in an
f-string, and in the message of an `AttributeError` on a value without `get`. -/
structure PythonText where
  number : ℚ → Bytes
  format : Json → Bytes
  noGet : Json → Bytes

theorem toNat_lt_of_char (c : Char) : c.toNat < 0x110000 := by
  rcases c.valid with low | ⟨-, high⟩
  · exact low.trans (by decide)
  · exact high

/-- The Python string of a decoded string. A line of the server has no `\u` in
its strings, so what is decoded from it is UTF-8. -/
def pyText (s : Bytes) : PyStr := ((Utf8.decode s).getD []).map fun c => ⟨c.toNat, toNat_lt_of_char c⟩

/-- The items between brackets, each on a line of its own, with `indent=2`. -/
def enclose (first last : UInt8) (level : ℕ) (texts : List Bytes) : Bytes :=
  let line := fun level => newline :: List.replicate (2 * level) 32
  if texts = [] then [first, last]
  else first :: (line (level + 1) ++ (comma :: line (level + 1)).intercalate texts ++ line level ++ [last])

mutual

/-- `json.dumps(value, indent=2)` at a level of nesting. -/
def dumpsIndent (python : PythonText) (level : ℕ) : Json → Bytes
  | .null => ascii "null"
  | .bool true => ascii "true"
  | .bool false => ascii "false"
  | .num q => python.number q
  | .str s => quote :: (dumps_str (pyText s) ++ [quote])
  | .arr items => enclose 91 93 level (dumpsItems python (level + 1) items)
  | .obj members => enclose 123 125 level (dumpsMembers python (level + 1) members)

def dumpsItems (python : PythonText) (level : ℕ) : List Json → List Bytes
  | [] => []
  | item :: items => dumpsIndent python level item :: dumpsItems python level items

def dumpsMembers (python : PythonText) (level : ℕ) : List (Bytes × Json) → List Bytes
  | [] => []
  | (name, value) :: members =>
    (quote :: (dumps_str (pyText name) ++ quote :: colon :: 32 :: dumpsIndent python level value)) ::
      dumpsMembers python level members

end

/-- The publisher, with the objects of the bucket and what was published to the
topic. The clients of S3 and SNS exist when they are needed: `boto3` is there
and a bucket, or a topic, is configured. -/
structure AwsAlertPublisher where
  boto3 : Bool
  bucket : Bytes
  topic_arn : Bytes
  keyPrefix : Bytes
  objects : AList (fun _ : Bytes => Bytes) := ∅
  published : List (Bytes × Bytes) := []
  last_result : Json

/-- What one call of `upload_alert` meets: `utc_timestamp()` at its start and
after an exception, `int(time.time())`, and the text of the exception that
`put_object` and `publish` raise, if they do. -/
structure AwsCall where
  now : Bytes
  later : Bytes := now
  time : ℕ
  put_object : Option Bytes := none
  publish : Option Bytes := none

/-- `alert.get("host", "unknown-host")` in an f-string. -/
def hostText (python : PythonText) : Json → Except Bytes Bytes
  | .obj alert =>
    match pyGet alert "host" (.str (ascii "unknown-host")) with
    | .str host => .ok host
    | other => .ok (python.format other)
  | other => .error (python.noGet other)

def s3Key (keyPrefix host : Bytes) (time : ℕ) : Bytes :=
  keyPrefix ++ host ++ ascii "-" ++ digits time ++ ascii ".json"

namespace AwsAlertPublisher

/-- The upload to the bucket, and the key it was made under. -/
def put (python : PythonText) (publisher : AwsAlertPublisher) (call : AwsCall) (alert : Json) :
    AwsAlertPublisher × Except Bytes Json :=
  if publisher.bucket = [] then (publisher, .ok .null)
  else
    match hostText python alert, call.put_object with
    | .error text, _ => (publisher, .error text)
    | .ok _, some text => (publisher, .error text)
    | .ok host, none =>
      let key := s3Key publisher.keyPrefix host call.time
      ({ publisher with objects := publisher.objects.insert key (dumpsIndent python 0 alert) }, .ok (.str key))

/-- The notification of the topic. -/
def notify (python : PythonText) (publisher : AwsAlertPublisher) (call : AwsCall) (alert : Json) :
    AwsAlertPublisher × Except Bytes Unit :=
  if publisher.topic_arn = [] then (publisher, .ok ())
  else
    match hostText python alert, call.publish with
    | .error text, _ => (publisher, .error text)
    | .ok _, some text => (publisher, .error text)
    | .ok host, none =>
      ({ publisher with
          published := publisher.published ++ [(ascii "SysNetMon alert for " ++ host, dumpsIndent python 0 alert)] },
        .ok ())

def finish (publisher : AwsAlertPublisher) (result : Json) : AwsAlertPublisher × Json :=
  ({ publisher with last_result := result }, result)

def failure (now message : Bytes) : Json :=
  .obj [(ascii "timestamp", .str now), (ascii "uploaded", .bool false), (ascii "message", .str message)]

/-- The publisher after `upload_alert`, and the result. -/
def upload_alert (python : PythonText) (publisher : AwsAlertPublisher) (call : AwsCall) (alert : Json) :
    AwsAlertPublisher × Json :=
  if publisher.boto3 = false then
    publisher.finish (failure call.now (ascii "boto3 not installed in dashboard environment"))
  else if publisher.bucket = [] ∧ publisher.topic_arn = [] then
    publisher.finish (failure call.now
      (ascii "Set ALERT_S3_BUCKET or ALERT_SNS_TOPIC_ARN to enable AWS uploads"))
  else
    match publisher.put python call alert with
    | (stored, .error text) => stored.finish (failure call.later text)
    | (stored, .ok s3_key) =>
      match stored.notify python call alert with
      | (notified, .error text) => notified.finish (failure call.later text)
      | (notified, .ok ()) =>
        notified.finish (.obj [(ascii "timestamp", .str call.now), (ascii "uploaded", .bool true),
          (ascii "message", .str (ascii "Alert published")), (ascii "s3_key", s3_key)])

end AwsAlertPublisher

/-- The alert of an event, if it is one. -/
def alert? : Json → Option Json
  | .obj event => if isType (pyGet event "type" .null) "alert" then some (pyGet event "data" (.obj [])) else none
  | _ => none

/-- The connector with its publisher, and the alerts uploaded so far with their results. -/
structure AlertConnector where
  state : DashboardState
  publisher : AwsAlertPublisher
  uploads : List (Json × Json) := []

/-- `_handle_event`, with the call of `upload_alert` that it makes on an alert. -/
def AlertConnector.on_event (python : PythonText) (connector : AlertConnector) (now : Bytes) (call : AwsCall)
    (event : Json) : Except PyError AlertConnector :=
  match alert? event with
  | some alert =>
    let (publisher, result) := connector.publisher.upload_alert python call alert
    (handle_event now result event connector.state).map fun state =>
      ⟨state, publisher, connector.uploads ++ [(alert, result)]⟩
  | none => (handle_event now .null event connector.state).map fun state => { connector with state }

/-- The events of a connection in order. `outside i` gives what the event at
position `i` meets. -/
def AlertConnector.on_events (python : PythonText) (connector : AlertConnector) (outside : ℕ → Bytes × AwsCall) :
    List Json → Except PyError AlertConnector
  | [] => .ok connector
  | event :: events =>
    (connector.on_event python (outside 0).1 (outside 0).2 event).bind fun next =>
      next.on_events python (fun i => outside (i + 1)) events

/-- An upload whose object is in the bucket under the key that was returned. -/
def StoredUnder (python : PythonText) (publisher : AwsAlertPublisher) (upload : Json × Json) : Prop :=
  ∃ result key, upload.2 = .obj result ∧ member (ascii "s3_key") result = some (.str key) ∧
    publisher.objects.lookup key = some (dumpsIndent python 0 upload.1)

/-- The alerts among the events, each with the second in which it is uploaded. -/
def timedAlerts (outside : ℕ → Bytes × AwsCall) : List ServerEvent → List (AlertEvent × ℕ)
  | [] => []
  | .alert alert :: events => (alert, (outside 0).2.time) :: timedAlerts (fun i => outside (i + 1)) events
  | _ :: events => timedAlerts (fun i => outside (i + 1)) events

/-- The value that the dashboard uploads for an alert. -/
def alertRecord (alert : AlertEvent) : Json := meaning (alertDoc alert)

/-- The key gives back the host and the second. -/
theorem s3Key_inj {keyPrefix host host' : Bytes} {time time' : ℕ}
    (same : s3Key keyPrefix host time = s3Key keyPrefix host' time') : host = host' ∧ time = time' := by
  have dash : ascii "-" = [45] := by decide
  have noDash (n : ℕ) : (45 : UInt8) ∉ digits n := fun member =>
    absurd (isdigit_of_mem_digits member) (by decide)
  rw [s3Key, s3Key, dash] at same
  have cut := List.append_cancel_left (by simpa using List.append_cancel_right same :
    keyPrefix ++ (host ++ 45 :: digits time) = keyPrefix ++ (host' ++ 45 :: digits time'))
  obtain ⟨hosts, times⟩ := Framing.cut_last_inj (noDash time) (noDash time') cut
  exact ⟨hosts, digits_inj times⟩

theorem hostText_alertRecord (python : PythonText) (alert : AlertEvent) :
    hostText python (alertRecord alert) = .ok alert.host := by
  simp only [alertRecord, alertDoc, meaning, meaningMembers]
  rfl

/-- An upload on which S3 and SNS succeed stores the alert under its key and
returns the key; the configuration stays. -/
theorem AwsAlertPublisher.upload_alert_ok (python : PythonText) {publisher : AwsAlertPublisher} {call : AwsCall}
    (boto3 : publisher.boto3 = true) (bucket : publisher.bucket ≠ []) (puts : call.put_object = none)
    (publishes : call.publish = none) (alert : AlertEvent) :
    let key := s3Key publisher.keyPrefix alert.host call.time
    ∃ after result, publisher.upload_alert python call (alertRecord alert) = (after, .obj result) ∧
      member (ascii "s3_key") result = some (.str key) ∧ after.boto3 = true ∧ after.bucket = publisher.bucket ∧
      after.keyPrefix = publisher.keyPrefix ∧
      after.objects = publisher.objects.insert key (dumpsIndent python 0 (alertRecord alert)) := by
  intro key
  have stored : publisher.put python call (alertRecord alert) =
      ({ publisher with objects := publisher.objects.insert key (dumpsIndent python 0 (alertRecord alert)) },
        .ok (.str key)) := by
    rw [put, if_neg bucket, hostText_alertRecord, puts]
  rw [upload_alert, if_neg (by simp [boto3]), if_neg (fun both => bucket both.1), stored]
  dsimp only
  by_cases topic : publisher.topic_arn = []
  · rw [notify, if_pos topic]
    exact ⟨_, _, rfl, rfl, boto3, rfl, rfl, rfl⟩
  · rw [notify, if_neg topic, hostText_alertRecord, publishes]
    exact ⟨_, _, rfl, rfl, boto3, rfl, rfl, rfl⟩

/-- Only an alert is uploaded. -/
theorem alert?_toObject (outside : ℕ → Bytes × AwsCall) (event : ServerEvent) (events : List ServerEvent) :
    (∃ alert, event = .alert alert ∧ alert? event.toObject = some (alertRecord alert)) ∨
      alert? event.toObject = none ∧
        timedAlerts outside (event :: events) = timedAlerts (fun i => outside (i + 1)) events := by
  cases event with
  | alert alert => exact Or.inl ⟨alert, rfl, rfl⟩
  | _ => exact Or.inr ⟨rfl, rfl⟩

/-- The value of an upload and the key in its result. -/
def UploadOf (keyPrefix : Bytes) (timed : AlertEvent × ℕ) (upload : Json × Json) : Prop :=
  upload.1 = alertRecord timed.1 ∧ ∃ result, upload.2 = .obj result ∧
    member (ascii "s3_key") result = some (.str (s3Key keyPrefix timed.1.host timed.2))

/-- The alerts of a connection are uploaded one after another, and the objects of
the bucket are filled with them. -/
theorem AlertConnector.on_events_toObject (python : PythonText) {connector : AlertConnector}
    {outside : ℕ → Bytes × AwsCall} (boto3 : connector.publisher.boto3 = true)
    (bucket : connector.publisher.bucket ≠ []) (puts : ∀ i, (outside i).2.put_object = none)
    (publishes : ∀ i, (outside i).2.publish = none) (events : List ServerEvent) :
    ∃ last uploads, connector.on_events python outside (events.map ServerEvent.toObject) = .ok last ∧
      last.uploads = connector.uploads ++ uploads ∧
      List.Forall₂ (UploadOf connector.publisher.keyPrefix) (timedAlerts outside events) uploads ∧
      last.publisher.objects = fill (fun timed => s3Key connector.publisher.keyPrefix timed.1.host timed.2)
        (fun timed => dumpsIndent python 0 (alertRecord timed.1)) connector.publisher.objects
        (timedAlerts outside events) := by
  induction events generalizing connector outside with
  | nil => exact ⟨connector, [], rfl, (List.append_nil _).symm, .nil, rfl⟩
  | cons event events ih =>
    rw [List.map_cons, on_events, on_event]
    rcases alert?_toObject outside event events with ⟨alert, rfl, is⟩ | ⟨is, others⟩
    · obtain ⟨after, result, uploaded, key, boto3', bucket', keyPrefix', objects⟩ :=
        AwsAlertPublisher.upload_alert_ok python boto3 bucket (puts 0) (publishes 0) alert
      rw [is]
      dsimp only
      rw [uploaded, handle_event_toObject]
      obtain ⟨last, uploads, run, appended, each, filled⟩ :=
        @ih ⟨_, after, connector.uploads ++ [(alertRecord alert, .obj result)]⟩ _ boto3' (bucket'.symm ▸ bucket)
          (fun i => puts (i + 1)) (fun i => publishes (i + 1))
      refine ⟨last, (alertRecord alert, .obj result) :: uploads, run, ?_, ?_, ?_⟩
      · rw [appended, List.append_assoc, List.singleton_append]
      · rw [keyPrefix'] at each
        exact .cons ⟨rfl, result, rfl, key⟩ each
      · rw [filled, objects, keyPrefix']
        rfl
    · rw [is, others]
      dsimp only
      rw [handle_event_toObject]
      exact @ih ⟨_, connector.publisher, connector.uploads⟩ _ boto3 bucket (fun i => puts (i + 1))
        (fun i => publishes (i + 1))

theorem forall_iff_of_forall₂ {α β : Type} {r : α → β → Prop} {p : α → Prop} {q : β → Prop} {as : List α}
    {bs : List β} (related : List.Forall₂ r as bs) (same : ∀ a b, r a b → (p a ↔ q b)) :
    (∀ a ∈ as, p a) ↔ ∀ b ∈ bs, q b := by
  induction related with
  | nil => simp
  | cons first _ ih => rw [List.forall_mem_cons, List.forall_mem_cons, same _ _ first, ih]

theorem UploadOf.storedUnder_iff {python : PythonText} {publisher : AwsAlertPublisher} {keyPrefix : Bytes}
    {timed : AlertEvent × ℕ} {upload : Json × Json} (is : UploadOf keyPrefix timed upload) :
    publisher.objects.lookup (s3Key keyPrefix timed.1.host timed.2) =
      some (dumpsIndent python 0 (alertRecord timed.1)) ↔ StoredUnder python publisher upload := by
  obtain ⟨value, result, shape, key⟩ := is
  constructor
  · intro stored
    exact ⟨result, _, shape, key, by rw [value, stored]⟩
  · rintro ⟨result', key', shape', key'', stored⟩
    rw [shape, Json.obj.injEq] at shape'
    rw [← shape', key, Option.some.injEq, Json.str.injEq] at key''
    rw [key'', stored, value]

/-- With a bucket and every upload successful, whatever the bucket held before:
each alert is still stored under the key that was returned for it exactly when
no two alerts of one host with different texts were uploaded in one second. -/
theorem uploads_kept_iff_apart (python : PythonText) {connector : AlertConnector} {outside : ℕ → Bytes × AwsCall}
    (boto3 : connector.publisher.boto3 = true) (bucket : connector.publisher.bucket ≠ [])
    (fresh : connector.uploads = []) (puts : ∀ i, (outside i).2.put_object = none)
    (publishes : ∀ i, (outside i).2.publish = none) (events : List ServerEvent) :
    ∃ last, connector.on_events python outside (events.map ServerEvent.toObject) = .ok last ∧
      last.uploads.map Prod.fst = (timedAlerts outside events).map (fun timed => alertRecord timed.1) ∧
      ((∀ upload ∈ last.uploads, StoredUnder python last.publisher upload) ↔
        (timedAlerts outside events).Pairwise fun first second =>
          first.1.host = second.1.host → first.2 = second.2 →
            dumpsIndent python 0 (alertRecord first.1) = dumpsIndent python 0 (alertRecord second.1)) := by
  obtain ⟨last, uploads, run, appended, each, filled⟩ :=
    AlertConnector.on_events_toObject python boto3 bucket puts publishes events
  rw [fresh, List.nil_append] at appended
  refine ⟨last, run, ?_, ?_⟩
  · have values : List.Forall₂ Eq (uploads.map Prod.fst)
        ((timedAlerts outside events).map fun timed => alertRecord timed.1) := by
      rw [List.forall₂_map_left_iff, List.forall₂_map_right_iff]
      exact (each.imp fun _ _ is => is.1).flip
    rwa [appended, ← List.forall₂_eq_eq_eq]
  · rw [appended, ← forall_iff_of_forall₂ each fun _ _ is => is.storedUnder_iff, filled, lookup_fill_all_iff]
    constructor
    · exact fun apart => apart.imp fun same hosts times => same (by rw [hosts, times])
    · exact fun apart => apart.imp fun same keys => same (s3Key_inj keys).1 (s3Key_inj keys).2

/-- Two alerts of a host, a second apart. -/
theorem uploads_kept_iff_apart_later :
    ∃ python connector outside, ∃ events : List ServerEvent, ∃ last,
      AlertConnector.on_events python connector outside (events.map ServerEvent.toObject) = .ok last ∧
        last.uploads.length = 2 ∧ ∀ upload ∈ last.uploads, StoredUnder python last.publisher upload := by
  let python : PythonText := ⟨fun q => digits q.num.toNat ++ ascii ".0", fun _ => [], fun _ => []⟩
  let publisher : AwsAlertPublisher :=
    { boto3 := true, bucket := ascii "alerts", topic_arn := [], keyPrefix := ascii "alerts/", last_result := .null }
  let connector : AlertConnector := ⟨{ aws := .null }, publisher, []⟩
  let outside : ℕ → Bytes × AwsCall := fun i =>
    (ascii "2024-01-02T03:04:05Z", { now := ascii "2024-01-02T03:04:05Z", time := 1704164645 + i })
  let fifty : Double := ⟨50, by decide +kernel⟩
  let alert (timestamp : Bytes) : AlertEvent :=
    ⟨ascii "a", timestamp, ascii "cpu_percent", ascii "CPU", fifty, 0, ascii "CPU>0%",
      ascii "CPU on a crossed threshold at 50.00"⟩
  let events : List ServerEvent :=
    [.alert (alert (ascii "2024-01-02T03:04:05Z")), .alert (alert (ascii "2024-01-02T03:04:06Z"))]
  obtain ⟨last, run, values, kept⟩ := @uploads_kept_iff_apart python connector outside rfl (by decide) rfl
    (fun _ => rfl) (fun _ => rfl) events
  refine ⟨python, connector, outside, events, last, run, ?_, kept.mpr ?_⟩
  · rw [← List.length_map, values]
    rfl
  · decide +kernel

/-- Two rules fire on one metrics line, and the second upload takes the place of the first. -/
theorem alerts_of_one_second_overwritten :
    ¬ ∀ platform server log connection python connector (outside : ℕ → Bytes × AwsCall),
      ServerRun platform server log → connection ∈ server.clients_ → connection.role = .Dashboard →
      connector.publisher.boto3 = true → connector.publisher.bucket ≠ [] → connector.uploads = [] →
      (∀ i, (outside i).2.put_object = none) → (∀ i, (outside i).2.publish = none) →
      (∀ i j, i ≤ j → (outside i).2.time ≤ (outside j).2.time) →
        ∃ last, AlertConnector.on_events python connector outside
            ((wire connection.fd log).map ServerEvent.toObject) = .ok last ∧
          ∀ upload ∈ last.uploads, StoredUnder python last.publisher upload := by
  intro kept
  let platform : Platform := ⟨fun _ => false⟩
  let clock : ℕ → Tm := fun _ => ⟨2024, 1, 2, 3, 4, 5⟩
  let python : PythonText := ⟨fun q => digits q.num.toNat ++ ascii ".0", fun _ => [], fun _ => []⟩
  let publisher : AwsAlertPublisher :=
    { boto3 := true, bucket := ascii "alerts", topic_arn := [], keyPrefix := ascii "alerts/", last_result := .null }
  let connector : AlertConnector := ⟨{ aws := .null }, publisher, []⟩
  let outside : ℕ → Bytes × AwsCall := fun _ =>
    (ascii "2024-01-02T03:04:05Z", { now := ascii "2024-01-02T03:04:05Z", time := 1704164645 })
  let requests : List Request :=
    [.accept 4 ⟨(127, 0, 0, 1), 50000⟩,
     .line clock 0 (ascii "\x7b\"type\":\"register\",\"role\":\"dashboard\"\x7d"),
     .line clock 0 (ascii "\x7b\"type\":\"command\",\"text\":\"/alert CPU>10%\"\x7d"),
     .line clock 0 (ascii "\x7b\"type\":\"command\",\"text\":\"/alert MEMORY>10%\"\x7d"),
     .accept 5 ⟨(127, 0, 0, 1), 50001⟩,
     .line clock 1 (ascii "\x7b\"type\":\"register\",\"role\":\"agent\"\x7d"),
     .line clock 1 (ascii "\x7b\"type\":\"metrics\",\"host\":\"a\",\"cpu_percent\":50,\"memory_percent\":60\x7d")]
  let Apart (events : List ServerEvent) : Prop := (timedAlerts outside events).Pairwise fun first second =>
    s3Key (ascii "alerts/") first.1.host first.2 = s3Key (ascii "alerts/") second.1.host second.2 →
      dumpsIndent python 0 (alertRecord first.1) = dumpsIndent python 0 (alertRecord second.1)
  have served : MonitorServer.servesTo platform requests (fun server log =>
      server.clients_.any fun connection => decide (connection.role = .Dashboard) &&
        decide (¬ Apart (wire connection.fd log))) = true := by decide +kernel
  obtain ⟨server, log, run, tested⟩ := MonitorServer.run_of_servesTo served
  simp only [Bool.and_eq_true, List.any_eq_true, decide_eq_true_eq] at tested
  obtain ⟨connection, member, role, overwritten⟩ := tested
  obtain ⟨last, handled, stored⟩ := kept platform server log connection python connector outside run member role
    rfl (by decide) rfl (fun _ => rfl) (fun _ => rfl) (fun _ _ _ => le_rfl)
  obtain ⟨last', uploads, handled', appended, each, filled⟩ :=
    @AlertConnector.on_events_toObject python connector outside rfl (by decide) (fun _ => rfl) (fun _ => rfl)
      (wire connection.fd log)
  rw [handled] at handled'
  cases handled'
  rw [appended, List.nil_append, ← forall_iff_of_forall₂ each fun _ _ is => is.storedUnder_iff, filled,
    lookup_fill_all_iff] at stored
  exact overwritten stored

end SysNetMon
