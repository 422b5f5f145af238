import SysNetMon.Server

/-!
The encoders of the event lines, as writers of one document each, and the value
that the dashboard decodes from such a line.
-/

namespace SysNetMon
open Bytes Decimal Json

/-- `escape_json` rewrites a character to a backslash and a letter, or leaves it. -/
theorem escape_char_cases (ch : UInt8) :
    (∃ e, escape_char ch = [backslash, e] ∧ letterEscape e = some ch ∧ e ∈ [backslash, quote, 110, 114, 116] ∧
      ch ∈ [backslash, quote, newline, 13, 9]) ∨
    (escape_char ch = [ch] ∧ ch ∉ [backslash, quote, newline, 13, 9]) := by
  unfold escape_char
  split
  · rename_i is
    exact Or.inl ⟨backslash, rfl, by rw [is]; rfl, by decide, by rw [is]; decide⟩
  · rename_i notBackslash
    split
    · rename_i is
      exact Or.inl ⟨quote, rfl, by rw [is]; rfl, by decide, by rw [is]; decide⟩
    · rename_i notQuote
      split
      · rename_i is
        exact Or.inl ⟨110, rfl, by rw [is]; rfl, by decide, by rw [is]; decide⟩
      · rename_i notNewline
        split
        · rename_i is
          exact Or.inl ⟨114, rfl, by rw [is]; rfl, by decide, by rw [is]; decide⟩
        · rename_i notReturn
          split
          · rename_i is
            exact Or.inl ⟨116, rfl, by rw [is]; rfl, by decide, by rw [is]; decide⟩
          · rename_i notTab
            exact Or.inr ⟨rfl, by simp [notBackslash, notQuote, notNewline, notReturn, notTab]⟩

def fixedDoc (value : Double) : Doc := .fixed (decide (value.val < 0)) (cents value)

def metricDoc (metric : MetricSnapshot) : Doc :=
  .obj [(ascii "host", .str metric.host), (ascii "timestamp", .str metric.timestamp),
    (ascii "cpu_percent", fixedDoc metric.cpu_percent), (ascii "memory_percent", fixedDoc metric.memory_percent),
    (ascii "disk_percent", fixedDoc metric.disk_percent), (ascii "network_rx_kbps", fixedDoc metric.network_rx_kbps),
    (ascii "network_tx_kbps", fixedDoc metric.network_tx_kbps),
    (ascii "memory_used_mb", .int metric.memory_used_mb.toInt),
    (ascii "memory_total_mb", .int metric.memory_total_mb.toInt),
    (ascii "disk_used_mb", .int metric.disk_used_mb.toInt), (ascii "disk_total_mb", .int metric.disk_total_mb.toInt)]

def alertDoc (alert : AlertEvent) : Doc :=
  .obj [(ascii "host", .str alert.host), (ascii "timestamp", .str alert.timestamp),
    (ascii "metric_key", .str alert.metric_key), (ascii "display_metric", .str alert.display_metric),
    (ascii "metric_value", fixedDoc alert.metric_value), (ascii "threshold", fixedDoc alert.threshold),
    (ascii "rule", .str alert.rule), (ascii "message", .str alert.message)]

def ruleDoc (rule : AlertRule) : Doc :=
  .obj [(ascii "command", .str rule.raw_command), (ascii "metric_key", .str rule.metric_key),
    (ascii "threshold", fixedDoc rule.threshold)]

/-- The document that the line of an event writes out. -/
def ServerEvent.toDoc : ServerEvent → Doc
  | ack message => .obj [(ascii "type", .str (ascii "ack")), (ascii "message", .str message)]
  | error message => .obj [(ascii "type", .str (ascii "error")), (ascii "message", .str message)]
  | snapshot now metrics => .obj [(ascii "type", .str (ascii "snapshot")),
      (ascii "timestamp", .str (iso_timestamp now)), (ascii "metrics", .arr ((ordered metrics).map metricDoc))]
  | metric data => .obj [(ascii "type", .str (ascii "metric")), (ascii "data", metricDoc data)]
  | alert data => .obj [(ascii "type", .str (ascii "alert")), (ascii "data", alertDoc data)]
  | chat message => .obj [(ascii "type", .str (ascii "chat")), (ascii "from", .str message.sender),
      (ascii "text", .str message.text), (ascii "timestamp", .str message.timestamp)]
  | rules items => .obj [(ascii "type", .str (ascii "rules")), (ascii "items", .arr (items.map ruleDoc))]

/-- The value that an event encodes. -/
def ServerEvent.toObject (event : ServerEvent) : Json := meaning event.toDoc

theorem render_str (s : Bytes) : render escape_json (.str s) = quoted s := by
  simp [render, quoted]

theorem render_fixed (value : Double) : render escape_json (fixedDoc value) = format_double value := rfl

theorem render_int (i : ℤ) : render escape_json (.int i) = printInt i := by
  simp [render]

/-- A literal string goes out as it stands, as escaping would leave it. -/
theorem quoted_literal {s : String} (plain : escape_json (ascii s) = ascii s) : quoted (ascii s) = literal s := by
  rw [quoted, plain, literal]

theorem render_obj (ms : List (Bytes × Doc)) :
    render escape_json (.obj ms) = [openBrace] ++ (renderMembers escape_json ms ++ [closeBrace]) := by
  simp [render, openBrace, closeBrace]

theorem render_arr (items : List Doc) :
    render escape_json (.arr items) = [91] ++ (renderItems escape_json items ++ [93]) := by
  simp [render]

theorem renderMembers_last {name : String} (plain : escape_json (ascii name) = ascii name) (d : Doc) :
    renderMembers escape_json [(ascii name, d)] = named name (render escape_json d) := by
  rw [renderMembers_cons, if_pos rfl, plain, named]
  simp

theorem renderMembers_next {name : String} (plain : escape_json (ascii name) = ascii name) (d : Doc)
    (m : Bytes × Doc) (ms : List (Bytes × Doc)) :
    renderMembers escape_json ((ascii name, d) :: m :: ms) =
      named name (render escape_json d) ++ ([comma] ++ renderMembers escape_json (m :: ms)) := by
  rw [renderMembers_cons, if_neg (by simp), plain, named]
  simp

/-- The loops of the encoders put a comma between the items. -/
theorem joined_render (docs : List Doc) : joined (docs.map (render escape_json)) = renderItems escape_json docs := by
  have later (docs : List Doc) (out : Bytes) :
      ((docs.map (render escape_json)).foldl
        (fun out item => (out.1 ++ (if out.2 then [] else [comma]) ++ item, false)) (out, false)).1 =
        out ++ if docs = [] then [] else comma :: renderItems escape_json docs := by
    induction docs generalizing out with
    | nil => simp
    | cons d docs ih =>
      rw [List.map_cons, List.foldl_cons, ih, renderItems_cons]
      simp
  cases docs with
  | nil => rfl
  | cons d docs =>
    rw [joined, List.map_cons, List.foldl_cons, renderItems_cons]
    simpa using later docs (render escape_json d)

theorem metric_data_to_json_eq (metric : MetricSnapshot) :
    metric_data_to_json metric = render escape_json (metricDoc metric) := by
  unfold metric_data_to_json metricDoc
  simp (disch := decide +kernel) only [render_obj, renderMembers_next, renderMembers_last,
    render_str, render_fixed, render_int, List.append_assoc]

theorem rule_to_json_eq (rule : AlertRule) : rule_to_json rule = render escape_json (ruleDoc rule) := by
  simp (disch := decide +kernel) only [ruleDoc, rule_to_json, render_obj, renderMembers_next, renderMembers_last,
    render_str, render_fixed, List.append_assoc]

theorem joined_map {α : Type} {f : α → Bytes} {doc : α → Doc} (same : ∀ a, f a = render escape_json (doc a))
    (items : List α) : joined (items.map f) = renderItems escape_json (items.map doc) := by
  rw [← joined_render, List.map_map]
  exact congrArg joined (List.map_congr_left fun a _ => same a)

/-- Every encoder writes the text of its document. -/
theorem ServerEvent.to_json_eq (event : ServerEvent) : event.to_json = render escape_json event.toDoc := by
  cases event with
  | ack message =>
    simp (disch := decide +kernel) only [to_json, toDoc, ack_event_to_json, render_obj, renderMembers_next,
      renderMembers_last, render_str, quoted_literal, List.append_assoc]
  | error message =>
    simp (disch := decide +kernel) only [to_json, toDoc, error_event_to_json, render_obj, renderMembers_next,
      renderMembers_last, render_str, quoted_literal, List.append_assoc]
  | snapshot now metrics =>
    simp (disch := decide +kernel) only [to_json, toDoc, snapshot_event_to_json, render_obj, render_arr, renderMembers_next,
      renderMembers_last, render_str, quoted_literal, joined_map metric_data_to_json_eq, List.append_assoc]
  | metric data =>
    simp (disch := decide +kernel) only [to_json, toDoc, metric_event_to_json, render_obj, renderMembers_next,
      renderMembers_last, render_str, quoted_literal, metric_data_to_json_eq, List.append_assoc]
  | alert data =>
    simp (disch := decide +kernel) only [to_json, toDoc, alertDoc, alert_event_to_json, render_obj, renderMembers_next,
      renderMembers_last, render_str, render_fixed, quoted_literal, List.append_assoc]
  | chat message =>
    simp (disch := decide +kernel) only [to_json, toDoc, chat_event_to_json, render_obj, renderMembers_next,
      renderMembers_last, render_str, quoted_literal, List.append_assoc]
  | rules items =>
    simp (disch := decide +kernel) only [to_json, toDoc, rules_event_to_json, render_obj, render_arr, renderMembers_next,
      renderMembers_last, render_str, quoted_literal, joined_map rule_to_json_eq, List.append_assoc]

end SysNetMon
