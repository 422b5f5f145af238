import Mathlib.Algebra.Order.Field.Rat
import SysNetMon.Text.Html

/-!
The page of the dashboard: the markup that `app.js` assigns to `innerHTML`.
-/

namespace SysNetMon
open Html

/-- The strings and numbers of the state that the page puts into its markup. -/
structure PageMetric where
  host : List Char
  timestamp : List Char
  cpu_percent : ℚ
  memory_percent : ℚ
  disk_percent : ℚ
  network_rx_kbps : ℚ
  network_tx_kbps : ℚ
  memory_used_mb : ℚ
  memory_total_mb : ℚ
  disk_used_mb : ℚ
  disk_total_mb : ℚ

structure PageRule where
  command : List Char
  metric_key : List Char
  threshold : ℚ

structure PageAlert where
  display_metric : List Char
  host : List Char
  message : List Char
  timestamp : List Char
  threshold : ℚ

structure PageChat where
  sender : List Char
  text : List Char
  timestamp : List Char

/-- The state that `/api/state` returns, as far as the page renders it. -/
structure PageState where
  metrics : List PageMetric
  rules : List PageRule
  alerts : List PageAlert
  chat : List PageChat

/-- What the page takes from the language: the texts of numbers, which hold no
`<`, and the order of strings. -/
structure JavaScript where
  number : ℚ → List Char
  toFixed : ℚ → ℕ → List Char
  localeCompare : List Char → List Char → ℤ
  number_text : ∀ q, '<' ∉ number q
  toFixed_text : ∀ q n, '<' ∉ toFixed q n

section Templates
variable (js : JavaScript)

/-- `pieces.join("") || otherwise` -/
def orElse (pieces : List Piece) (otherwise : String) : List Piece :=
  if fill pieces = [] then [.markup otherwise] else pieces

def hostCard (metric : PageMetric) : List Piece :=
  [.markup "\n        <article class=\"host-card\">\n            <h3>", .value metric.host,
    .markup "</h3>\n            <p><strong>CPU:</strong> ", .number (js.toFixed metric.cpu_percent 1),
    .markup "%</p>\n            <p><strong>Memory:</strong> ", .number (js.number metric.memory_used_mb), .markup "/",
    .number (js.number metric.memory_total_mb), .markup " MB (", .number (js.toFixed metric.memory_percent 1),
    .markup "%)</p>\n            <p><strong>Disk:</strong> ", .number (js.number metric.disk_used_mb), .markup "/",
    .number (js.number metric.disk_total_mb), .markup " MB (", .number (js.toFixed metric.disk_percent 1),
    .markup "%)</p>\n            <p><strong>Network:</strong> RX ", .number (js.toFixed metric.network_rx_kbps 1),
    .markup " KB/s, TX ", .number (js.toFixed metric.network_tx_kbps 1),
    .markup " KB/s</p>\n            <p><strong>Last Update:</strong> ", .value metric.timestamp,
    .markup "</p>\n        </article>\n    "]

def renderHosts (metrics : List PageMetric) : List Piece :=
  orElse ((metrics.mergeSort fun a b => js.localeCompare a.host b.host ≤ 0).flatMap (hostCard js))
    "<p class=\"subtle\">No hosts connected yet.</p>"

def renderFeed {α : Type} (items : List α) (formatter : α → List Piece) : List Piece :=
  orElse (items.flatMap formatter) "<div class=\"feed-item\">No data yet.</div>"

def ruleItem (rule : PageRule) : List Piece :=
  [.markup "\n        <div class=\"rule-item\">", .value rule.command, .markup " <span class=\"subtle\">(",
    .value rule.metric_key, .markup " threshold ", .number (js.toFixed rule.threshold 1), .markup ")</span></div>\n    "]

def renderRules (rules : List PageRule) : List Piece :=
  orElse (rules.flatMap (ruleItem js)) "<p class=\"subtle\">No active rules.</p>"

def alertItem (item : PageAlert) : List Piece :=
  [.markup "\n        <div class=\"feed-item\">\n            <strong>", .value item.display_metric,
    .markup "</strong> on ", .value item.host, .markup "<br>\n            ", .value item.message,
    .markup "<br>\n            <span class=\"subtle\">", .value item.timestamp, .markup " | Threshold ",
    .number (js.toFixed item.threshold 1), .markup "</span>\n        </div>\n    "]

def chatItem (item : PageChat) : List Piece :=
  [.markup "\n        <div class=\"feed-item\">\n            <strong>", .value item.sender,
    .markup "</strong><br>\n            ", .value item.text, .markup "<br>\n            <span class=\"subtle\">",
    .value item.timestamp, .markup "</span>\n        </div>\n    "]

/-- What `refreshState` assigns to the `innerHTML` of the four containers. -/
def refreshState (state : PageState) : List (List Piece) :=
  [renderHosts js state.metrics, renderRules js state.rules, renderFeed state.alerts.reverse (alertItem js),
    renderFeed state.chat.reverse chatItem]

end Templates

/-- The strings of a state that the page shows. -/
def PageState.strings (state : PageState) : List (List Char) :=
  state.metrics.flatMap (fun metric => [metric.host, metric.timestamp]) ++
    state.rules.flatMap (fun rule => [rule.command, rule.metric_key]) ++
    state.alerts.flatMap (fun alert => [alert.display_metric, alert.host, alert.message, alert.timestamp]) ++
    state.chat.flatMap fun chat => [chat.sender, chat.text, chat.timestamp]

/-- The same numbers of hosts, rules, alerts and chat entries. -/
def PageState.SameCounts (state other : PageState) : Prop :=
  state.metrics.length = other.metrics.length ∧ state.rules.length = other.rules.length ∧
    state.alerts.length = other.alerts.length ∧ state.chat.length = other.chat.length

section Safe
variable (js : JavaScript)

theorem safe_hostCard (metric : PageMetric) : Safe (hostCard js metric) := by
  have fixed (q : ℚ) {rest : List Piece} (safe : Safe rest) : Safe (.number (js.toFixed q 1) :: rest) :=
    .number (js.toFixed_text _ _) safe
  have number (q : ℚ) {rest : List Piece} (safe : Safe rest) : Safe (.number (js.number q) :: rest) :=
    .number (js.number_text _) safe
  refine .markup ?_ (.value ?_ ?_ (fixed _ (.markup ?_ (number _ (.markup ?_ (number _ (.markup ?_ (fixed _
    (.markup ?_ (number _ (.markup ?_ (number _ (.markup ?_ (fixed _ (.markup ?_ (fixed _ (.markup ?_ (fixed _
      (.markup ?_ (.value ?_ ?_ trivial))))))))))))))))))))
  all_goals decide +kernel

theorem safe_ruleItem (rule : PageRule) : Safe (ruleItem js rule) := by
  refine .markup ?_ (.value ?_ ?_ (.value ?_ ?_ (.number (js.toFixed_text _ _) (.markup ?_ trivial))))
  all_goals decide +kernel

theorem safe_alertItem (item : PageAlert) : Safe (alertItem js item) := by
  refine .markup ?_ (.value ?_ ?_ (.value ?_ ?_ (.value ?_ ?_ (.value ?_ ?_ (.number (js.toFixed_text _ _)
    (.markup ?_ trivial))))))
  all_goals decide +kernel

theorem safe_chatItem (item : PageChat) : Safe (chatItem item) := by
  refine .markup ?_ (.value ?_ ?_ (.value ?_ ?_ (.value ?_ ?_ trivial)))
  all_goals decide +kernel

/-- The placeholder takes the place of an empty list. -/
theorem orElse_flatMap {α : Type} {template : α → List Piece} (solid : ∀ a, fill (template a) ≠ []) (items : List α)
    (otherwise : String) :
    orElse (items.flatMap template) otherwise =
      if items.isEmpty then [.markup otherwise] else items.flatMap template := by
  cases items with
  | nil => rfl
  | cons item items =>
    refine if_neg fun empty => solid item ?_
    rw [List.flatMap_cons, fill, List.flatMap_append, List.append_eq_nil_iff] at empty
    exact empty.1

end Safe

section Lists
variable {α : Type} {template : α → List Piece} (otherwise : String)

/-- A list of items, or its placeholder, is shown as it should exactly when the values of all items are plain. -/
theorem shown_list_iff (safe : ∀ a, Safe (template a)) (solid : ∀ a, fill (template a) ≠ [])
    (placeholder : Safe [.markup otherwise]) (items : List α) :
    Shown (orElse (items.flatMap template) otherwise) ↔
      ∀ item ∈ items, ∀ text, .value text ∈ template item → Plain text := by
  rw [orElse_flatMap solid]
  cases items with
  | nil =>
    exact iff_of_true ((shown_iff_plain placeholder).mpr (by simp)) (by simp)
  | cons item items =>
    rw [List.isEmpty_cons, if_neg Bool.false_ne_true, shown_iff_plain (Safe.flatMap safe _)]
    simp only [List.mem_flatMap]
    exact ⟨fun all item member text inItem => all text ⟨item, member, inItem⟩,
      fun all text ⟨item, member, inItem⟩ => all item member text inItem⟩

theorem markups_list (same : ∀ a b, markups (template a) = markups (template b))
    (solid : ∀ a, fill (template a) ≠ []) {items items' : List α} (count : items.length = items'.length) :
    markups (orElse (items.flatMap template) otherwise) = markups (orElse (items'.flatMap template) otherwise) := by
  rw [orElse_flatMap solid, orElse_flatMap solid]
  cases items with
  | nil => rw [List.eq_nil_of_length_eq_zero count.symm]
  | cons item items =>
    obtain ⟨item', items', rfl⟩ := List.exists_cons_of_length_eq_add_one count.symm
    exact markups_flatMap same count

end Lists

section Page
variable (js : JavaScript)

theorem fill_ne_nil {c : Char} {l : List Char} (pieces : List Piece) :
    fill (.markup (String.ofList (c :: l)) :: pieces) ≠ [] := by
  rw [fill, List.flatMap_cons, Piece.source, String.toList_ofList]
  exact List.cons_ne_nil _ _

theorem solid_hostCard (metric : PageMetric) : fill (hostCard js metric) ≠ [] := fill_ne_nil _

theorem solid_ruleItem (rule : PageRule) : fill (ruleItem js rule) ≠ [] := fill_ne_nil _

theorem solid_alertItem (item : PageAlert) : fill (alertItem js item) ≠ [] := fill_ne_nil _

theorem solid_chatItem (item : PageChat) : fill (chatItem item) ≠ [] := fill_ne_nil _

/-- The page shows every string as text, with no tags but its own, exactly when all strings are plain. -/
theorem shown_refreshState_iff (state : PageState) :
    (∀ pieces ∈ refreshState js state, Shown pieces) ↔ ∀ text ∈ state.strings, Plain text := by
  have hosts := shown_list_iff "<p class=\"subtle\">No hosts connected yet.</p>" (safe_hostCard js)
    (solid_hostCard js) (.markup (by decide +kernel) trivial)
    (state.metrics.mergeSort fun a b => js.localeCompare a.host b.host ≤ 0)
  have rules := shown_list_iff "<p class=\"subtle\">No active rules.</p>" (safe_ruleItem js) (solid_ruleItem js)
    (.markup (by decide +kernel) trivial) state.rules
  have alerts := shown_list_iff "<div class=\"feed-item\">No data yet.</div>" (safe_alertItem js)
    (solid_alertItem js) (.markup (by decide +kernel) trivial) state.alerts.reverse
  have chat := shown_list_iff "<div class=\"feed-item\">No data yet.</div>" safe_chatItem solid_chatItem
    (.markup (by decide +kernel) trivial) state.chat.reverse
  simp only [refreshState, List.forall_mem_cons, renderHosts, renderRules, renderFeed, hosts, rules, alerts, chat,
    List.mem_mergeSort, List.mem_reverse, PageState.strings, List.forall_mem_append, List.forall_mem_flatMap, and_assoc]
  simp [hostCard, ruleItem, alertItem, chatItem]

/-- The markup of the page goes by the numbers of entries. -/
theorem markups_refreshState {state other : PageState} (counts : state.SameCounts other) :
    (refreshState js state).map markups = (refreshState js other).map markups := by
  obtain ⟨metrics, rules, alerts, chat⟩ := counts
  simp only [refreshState, renderHosts, renderRules, renderFeed, List.map_cons, List.map_nil, List.cons.injEq, and_true]
  refine ⟨?_, ?_, ?_, ?_⟩
  · exact markups_list _ (fun _ _ => rfl) (solid_hostCard js) (by simpa using metrics)
  · exact markups_list _ (fun _ _ => rfl) (solid_ruleItem js) rules
  · exact markups_list _ (fun _ _ => rfl) (solid_alertItem js) (by simpa using alerts)
  · exact markups_list _ (fun _ _ => rfl) solid_chatItem (by simpa using chat)

end Page

/-- For two states with the same numbers of entries: the page has the same tags
and attributes for both, and shows every string of both as text, exactly when all
strings of both are plain. -/
theorem markup_fixed_iff_plain (js : JavaScript) {state other : PageState} (counts : state.SameCounts other) :
    ((∀ pieces ∈ refreshState js state, Shown pieces) ∧ (∀ pieces ∈ refreshState js other, Shown pieces) ∧
        (refreshState js state).map (fun pieces => tags (fill pieces)) =
          (refreshState js other).map fun pieces => tags (fill pieces)) ↔
      (∀ text ∈ state.strings, Plain text) ∧ ∀ text ∈ other.strings, Plain text := by
  rw [← and_assoc, shown_refreshState_iff, shown_refreshState_iff, and_iff_left_iff_imp]
  rintro ⟨plain, plain'⟩
  have shown := (shown_refreshState_iff js state).mpr plain
  have shown' := (shown_refreshState_iff js other).mpr plain'
  have same := markups_refreshState js counts
  have own {documents : List (List Piece)} (all : ∀ pieces ∈ documents, Shown pieces) :
      documents.map (fun pieces => tags (fill pieces)) = (documents.map markups).map ownTags := by
    rw [List.map_map]
    exact List.map_congr_left fun pieces member => tags_of_shown (all pieces member)
  rw [own shown, own shown', same]

/-- Decimal digits hold no `<`. -/
theorem not_mem_toDigits (n : ℕ) : '<' ∉ Nat.toDigits 10 n := fun member =>
  absurd (Nat.isDigit_of_mem_toDigits (by decide) (by decide) member) (by decide)

/-- A language in which only whole numbers have texts of their own, and strings go by
the code points of their characters. -/
def wholeNumbers : JavaScript where
  number q := Nat.toDigits 10 q.num.toNat
  toFixed q _ := Nat.toDigits 10 q.num.toNat ++ ['.', '0']
  localeCompare a b := if a = b then 0 else if a < b then -1 else 1
  number_text _ := not_mem_toDigits _
  toFixed_text _ _ := by simp [not_mem_toDigits]

/-- One host and one chat entry each, with a `<` that stands alone. -/
theorem markup_fixed_iff_plain_comparison :
    ∃ js, ∃ state other : PageState, state.metrics.length = 1 ∧ state.SameCounts other ∧
      (∀ pieces ∈ refreshState js state, Shown pieces) ∧ (∀ pieces ∈ refreshState js other, Shown pieces) ∧
      (refreshState js state).map (fun pieces => tags (fill pieces)) =
        (refreshState js other).map fun pieces => tags (fill pieces) := by
  let state (host text : String) : PageState :=
    { metrics := [⟨host.toList, "2024-01-02T03:04:05Z".toList, 50, 25, 75, 3, 4, 1024, 4096, 300, 400⟩]
      rules := []
      alerts := []
      chat := [⟨"ana".toList, text.toList, "2024-01-02T03:04:05Z".toList⟩] }
  have counts : (state "a" "1 < 2").SameCounts (state "b" "<3") := by simp [state, PageState.SameCounts]
  exact ⟨wholeNumbers, state "a" "1 < 2", state "b" "<3", rfl, counts, (markup_fixed_iff_plain wholeNumbers counts).mpr
    ⟨by simp [state, PageState.strings, Plain, opensMarkup], by simp [state, PageState.strings, Plain, opensMarkup]⟩⟩

/-- A chat text that is an image with a handler. -/
theorem chat_text_becomes_element :
    ¬ ∀ (js : JavaScript) (state other : PageState), state.SameCounts other →
      (∀ pieces ∈ refreshState js state, Shown pieces) ∧ (∀ pieces ∈ refreshState js other, Shown pieces) ∧
        (refreshState js state).map (fun pieces => tags (fill pieces)) =
          (refreshState js other).map fun pieces => tags (fill pieces) := by
  intro fixed
  let state (text : String) : PageState :=
    { metrics := []
      rules := []
      alerts := []
      chat := [⟨"eve".toList, text.toList, "2024-01-02T03:04:05Z".toList⟩] }
  have differ : (refreshState wholeNumbers (state "hi")).map (fun pieces => tags (fill pieces)) ≠
      (refreshState wholeNumbers (state "<img src=x onerror=alert(1)>")).map fun pieces => tags (fill pieces) := by
    decide +kernel
  have counts : (state "hi").SameCounts (state "<img src=x onerror=alert(1)>") := by
    simp [state, PageState.SameCounts]
  exact differ (fixed wholeNumbers _ _ counts).2.2

end SysNetMon
