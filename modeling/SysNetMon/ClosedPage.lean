import SysNetMon.ClosedSystem
import SysNetMon.PageData

/-!
The page of a dashboard among the programs of the repository: it shows what agents
collect and users type, and nothing else.
-/

namespace SysNetMon
open Bytes Decimal Json KeySearch PyStr

section Strings
variable {s : Bytes}

/-- `escape_json` makes no raw control character of what has none. -/
theorem Clean.escape_json (clean : Clean s) : Clean (escape_json s) := by
  intro ch member
  obtain ⟨original, inS, inner⟩ := List.mem_flatMap.mp member
  rcases escape_char_cases original with ⟨e, shape, -, letter, -⟩ | ⟨shape, -⟩
  · rw [shape] at inner
    have letters : ∀ ch ∈ backslash :: [backslash, quote, 110, 114, 116], israwcontrol ch = false := by
      decide +kernel
    rcases List.mem_cons.mp inner with rfl | here
    · exact letters _ List.mem_cons_self
    · exact letters ch (List.mem_cons_of_mem _ (List.mem_singleton.mp here ▸ letter))
  · rw [shape, List.mem_singleton] at inner
    exact inner ▸ clean original inS

theorem Clean.readBack (clean : Clean s) : Clean (readBack s) := fun ch member =>
  clean.escape_json ch (List.takeWhile_subset _ member)

/-- Of a name that is not empty something is read back: an escape begins with a backslash. -/
theorem readBack_ne_nil (some : s ≠ []) : readBack s ≠ [] := by
  obtain ⟨ch, rest, rfl⟩ := List.exists_cons_of_ne_nil some
  have first : ∃ d tail, escape_char ch = d :: tail ∧ d ≠ quote := by
    rcases escape_char_cases ch with ⟨e, shape, -⟩ | ⟨shape, plain⟩
    · exact ⟨_, _, shape, by decide⟩
    · exact ⟨_, _, shape, fun same => plain (by rw [same]; decide)⟩
  obtain ⟨d, tail, shape, other⟩ := first
  rw [readBack, escape_json, List.flatMap_cons, shape, List.cons_append,
    List.takeWhile_cons_of_pos (by simpa using other)]
  exact List.cons_ne_nil _ _

theorem valid_escape_json (valid : Utf8.Valid s) : Utf8.Valid (escape_json s) :=
  valid.flatMap escape_char_ascii escape_char_other

theorem valid_of_printable (printable : Printable s) : Utf8.Valid s := (sound_of_printable printable).2

theorem valid_register_message (valid : Utf8.Valid s) : Utf8.Valid (register_message s) := by
  have start : Printable (ascii "\x7b\"type\":\"register\",\"role\":\"agent\",\"host\":\"") := by decide +kernel
  have finish : Printable (ascii "\"\x7d") := by decide
  exact ((valid_of_printable start).append (valid_escape_json valid)).append (valid_of_printable finish)

theorem valid_metrics_payload {metric : MetricSnapshot} (host : Sound metric.host)
    (timestamp : Sound metric.timestamp) : Utf8.Valid (metrics_payload metric) := by
  have start : Printable (ascii "\x7b\"type\":\"metrics\",") := by decide +kernel
  have whole : Utf8.Valid (metric_data_to_json metric) := by
    rw [metric_data_to_json_eq]
    exact render_closed Utf8.Valid.append valid_of_printable _ fun s member =>
      valid_escape_json (soundDoc_metric host timestamp s member).2
  rw [metric_data_opened] at whole
  exact (valid_of_printable start).append (Utf8.Valid.split (a := []) (by decide) whole).2

end Strings

/-! What the programs write is sound to the server. -/

section Lines
variable {platform : Platform} {client : ClientConnection}

theorem lineSound_register_message {agent_name : Bytes} (sound : Sound agent_name) :
    LineSound platform client (register_message agent_name) := by
  have role : (ascii "role", quote :: (ascii "agent" ++ [quote])) ∈ registerFields agent_name :=
    List.mem_cons_of_mem _ List.mem_cons_self
  refine ⟨valid_register_message sound.2, ?_⟩
  rw [heldStrings_register (lineType_register agent_name), register_host, register_message_eq,
    json_get_string_objectText (separate_registerFields agent_name) no_gap role, List.forall_mem_cons,
    List.forall_mem_singleton]
  exact ⟨by decide, sound.1.readBack⟩

theorem lineSound_metrics_payload {metric : MetricSnapshot} (host : Sound metric.host)
    (timestamp : Sound metric.timestamp) : LineSound platform client (metrics_payload metric) := by
  refine ⟨valid_metrics_payload host timestamp, ?_⟩
  rw [heldStrings, lineType_payload, if_neg (by decide)]
  dsimp only
  split
  · rw [payload_string (s := metric.host) (by simp [payloadFields]),
      payload_string (s := metric.timestamp) (by simp [payloadFields]), List.forall_mem_cons, List.forall_mem_singleton]
    exact ⟨host.1.readBack, timestamp.1.readBack⟩
  · rw [if_neg (by decide), if_neg (by decide)]
    exact List.forall_mem_nil _

/-- Whatever is extracted from what a dashboard dumps is printable. -/
theorem lineSound_dumps {fields : List (String × PyStr)} (names : ∀ f ∈ fields, Printable (ascii f.1)) :
    LineSound platform client (dumps fields) := by
  have printable := printable_dumps names
  have inside (key : Bytes) : Clean ((json_get_string (dumps fields) key).getD []) := by
    cases found : json_get_string (dumps fields) key with
    | none => exact List.forall_mem_nil _
    | some s =>
      obtain ⟨before, after, shape, -⟩ := json_get_string_some found
      have inside : ∀ ch ∈ s, ch ∈ dumps fields := fun ch member =>
        shape ▸ List.mem_append_right _ (List.mem_cons_of_mem _ (List.mem_append_left _ member))
      exact (sound_of_printable fun ch member => printable ch (inside ch member)).1
  refine ⟨valid_of_printable printable, ?_⟩
  unfold heldStrings
  dsimp only
  split
  · exact List.forall_mem_cons.mpr ⟨inside _, List.forall_mem_singleton.mpr (inside _)⟩
  split
  · exact List.forall_mem_cons.mpr ⟨inside _, List.forall_mem_singleton.mpr (inside _)⟩
  split
  · split
    · exact List.forall_mem_singleton.mpr (inside _)
    · exact List.forall_mem_nil _
  split
  · exact List.forall_mem_cons.mpr ⟨inside _, List.forall_mem_singleton.mpr (inside _)⟩
  · exact List.forall_mem_nil _

end Lines

/-- A metric is collected under the agent's name, with a time. -/
theorem SessionStep.collected_as {config : AgentConfig} {session after : AgentSession} {entries : List AgentEvent}
    (one : SessionStep config session entries after) : ∀ entry ∈ entries, ∀ metric, entry.metric? = some metric →
      metric.host = config.agent_name ∧ ∃ now, metric.timestamp = iso_timestamp now := by
  have calls {α : Type} {l : List α} {call : α → SocketCall} : ∀ entry ∈ l.map fun a => AgentEvent.call (call a),
      ∀ metric, entry.metric? = some metric →
        metric.host = config.agent_name ∧ ∃ now, metric.timestamp = iso_timestamp now := by
    intro entry member metric is
    obtain ⟨a, -, rfl⟩ := List.mem_map.mp member
    cases is
  cases one with
  | connect attempt _ _ => exact calls
  | leave _ _ => exact calls
  | collect current_tick report results _ _ =>
    unfold AgentSession.collect
    dsimp only
    split
    · refine List.forall_mem_cons.mpr ⟨fun metric is => ?_, calls⟩
      cases is
      exact ⟨rfl, report.now, rfl⟩
    · refine List.forall_mem_cons.mpr ⟨fun metric is => ?_, List.forall_mem_append.mpr ⟨calls, calls⟩⟩
      cases is
      exact ⟨rfl, report.now, rfl⟩
  | _ => exact List.forall_mem_nil _

theorem SessionRun.collected_as {config : AgentConfig} {cpu : CpuReport} {net : NetReport} {tick : ℤ}
    {session : AgentSession} {log : List AgentEvent} (run : SessionRun config cpu net tick session log) :
    ∀ metric ∈ log.filterMap AgentEvent.metric?,
      metric.host = config.agent_name ∧ ∃ now, metric.timestamp = iso_timestamp now := by
  refine run.invariant (fun _ log => ∀ metric ∈ log.filterMap AgentEvent.metric?,
    metric.host = config.agent_name ∧ ∃ now, metric.timestamp = iso_timestamp now) (List.forall_mem_nil _) ?_
  intro session after log entries _ ih one
  rw [List.filterMap_append]
  refine List.forall_mem_append.mpr ⟨ih, fun metric member => ?_⟩
  obtain ⟨entry, inEntries, is⟩ := List.mem_filterMap.mp member
  exact one.collected_as entry inEntries metric is

namespace Deployment
variable {deployment : Deployment} {platform : Platform} {rounds : List Round}

/-- Every agent has a name, of text without raw control characters, which the server
does not read as one that an object inherits. -/
def Named (deployment : Deployment) : Prop :=
  ∀ agent ∈ deployment.agents, agent.1.agent_name ≠ [] ∧ Sound agent.1.agent_name ∧
    chars (readBack agent.1.agent_name) ∉ objectPrototype

theorem Named.collected (named : deployment.Named) {metric : MetricSnapshot} (collected : deployment.Collected metric) :
    metric.host ≠ [] ∧ chars (readBack metric.host) ∉ objectPrototype ∧ Sound metric.host ∧ Sound metric.timestamp := by
  obtain ⟨agent, deployed, inLog⟩ := collected
  obtain ⟨cpu, net, tick, session, run⟩ := deployment.ran agent deployed
  obtain ⟨host, now, timestamp⟩ := run.collected_as metric inLog
  rw [host, timestamp]
  obtain ⟨some, sound, plain⟩ := named agent deployed
  exact ⟨some, plain, sound, sound_of_printable (printable_iso_timestamp now)⟩

/-- Each line that is written is sound. -/
theorem Writes.lineSound (named : deployment.Named) {written : Bytes} (writes : deployment.Writes written)
    (client : ClientConnection) : ∀ line ∈ linesOf written, LineSound platform client line := by
  intro line member
  cases writes with
  | @agent config log _ deployed own =>
    obtain ⟨cpu, net, tick, session, run⟩ := deployment.ran _ deployed
    obtain ⟨parts, all, carried⟩ := moves_carry run.moves.1
    obtain ⟨metrics, inParts, carries⟩ := forall₂_of_mem_right carried.each own
    rcases List.mem_cons.mp (carries.linesOf.2.subset member) with rfl | payload
    · exact lineSound_register_message (named _ deployed).2.1
    · obtain ⟨metric, inMetrics, rfl⟩ := List.mem_map.mp payload
      have collected : deployment.Collected metric :=
        ⟨_, deployed, all ▸ List.mem_flatten.mpr ⟨metrics, inParts, inMetrics⟩⟩
      obtain ⟨-, -, host, timestamp⟩ := named.collected collected
      exact lineSound_metrics_payload host timestamp
  | @dashboard messages deployed =>
    rw [linesOf_textOf (Participant.dashboard messages).wireLines] at member
    rcases List.mem_cons.mp member with rfl | typed
    · refine lineSound_dumps ?_
      simp only [dashboardRegister, List.forall_mem_cons]
      exact ⟨by decide, by decide, by decide, List.forall_mem_nil _⟩
    · obtain ⟨message, -, rfl⟩ := List.mem_map.mp typed
      exact lineSound_dumps fun f inFields => (message.names f inFields).2

theorem Heard.lineSound (heard : deployment.Heard platform rounds) (named : deployment.Named) {h : Handled}
    (member : .handled h ∈ (Process.run platform rounds).log.flatMap (Activity.entries platform))
    (client : ClientConnection) : LineSound platform client h.line := by
  obtain ⟨fd, call, inLog, is⟩ := handled_of_entries member
  obtain ⟨written, writes, inLines⟩ := heard.written inLog
  rw [is]
  exact writes.lineSound named client _ inLines

/-- Each metric that the server accepts has a host, which an object does not inherit. -/
theorem Heard.hosts (heard : deployment.Heard platform rounds) (named : deployment.Named) {h : Handled}
    (member : .handled h ∈ (Process.run platform rounds).log.flatMap (Activity.entries platform))
    {metric : MetricSnapshot} (accepted : h.accepted platform = some metric) :
    metric.host ≠ [] ∧ chars metric.host ∉ objectPrototype := by
  obtain ⟨fd, call, inLog, is⟩ := handled_of_entries member
  obtain ⟨participant, among, spoken⟩ := heard.spoken inLog
  rw [← is] at spoken
  unfold Handled.accepted at accepted
  split at accepted
  · split at accepted
    · rename_i client _ metrics
      obtain ⟨collected, own, line⟩ := spoken.of_metrics metrics.1
      rw [line, read_metric_payload] at accepted
      cases accepted
      obtain ⟨some, plain, -⟩ := named.collected (among.1 collected own)
      exact ⟨readBack_ne_nil some, plain⟩
    · cases accepted
  · cases accepted

/-- The entries of the chat feed that the deployment accounts for. -/
inductive Said (deployment : Deployment) (platform : Platform) : PageChat → Prop
  | typed {sender text now} : deployment.Typed (.chat sender text) →
      Said deployment platform ⟨chars (wireText sender), chars (wireText text), chars (iso_timestamp now)⟩
  | announced {rule now} : deployment.Ordered platform rule →
      Said deployment platform
        ⟨chars (ascii "system"), chars (ascii "Registered alert rule: " ++ rule.raw_command), chars (iso_timestamp now)⟩
  | answered {text timestamp} : Said deployment platform ⟨chars (ascii "ack"), text, timestamp⟩
  | refused {text timestamp} : Said deployment platform ⟨chars (ascii "error"), text, timestamp⟩

/-- All that a page shows was collected or typed: each card is that of a metric as
the server has it, and each alert is about such a metric, which crosses a rule. -/
structure Explains (deployment : Deployment) (platform : Platform) (page : PageState) : Prop where
  metrics : ∀ card ∈ page.metrics, ∃ collected, deployment.Collected collected ∧ card = pageMetric (relayed collected)
  rules : ∀ shown ∈ page.rules, ∃ rule, deployment.Ordered platform rule ∧ shown = pageRule rule
  alerts : ∀ shown ∈ page.alerts, ∃ now collected rule, deployment.Collected collected ∧
    deployment.Ordered platform rule ∧ rule_matches rule (relayed collected) = true ∧
      shown = pageAlert (alertOf now (relayed collected) rule)
  chat : ∀ item ∈ page.chat, deployment.Said platform item

theorem mem_pageChats {outside : ℕ → Bytes × Json} {events : List ServerEvent} {item : PageChat}
    (member : item ∈ pageChats outside events) : ∃ event ∈ events, ∃ now, item ∈ pageChat now event := by
  induction events generalizing outside with
  | nil => cases member
  | cons event events ih =>
    rcases List.mem_append.mp member with first | later
    · exact ⟨event, List.mem_cons_self, _, first⟩
    · obtain ⟨other, inEvents, now, inItems⟩ := ih later
      exact ⟨other, List.mem_cons_of_mem event inEvents, now, inItems⟩

theorem mem_pageMetrics {latest : AList fun _ : Bytes => MetricSnapshot} {card : PageMetric}
    (member : card ∈ pageMetrics latest) :
    ∃ host metric, latest.lookup host = some metric ∧ card = pageMetric metric := by
  obtain ⟨metric, inServer, rfl⟩ := List.mem_map.mp member
  obtain ⟨host, found⟩ := (mem_ordered metric).mp inServer
  exact ⟨host, metric, found, rfl⟩

theorem Accounts.alert_shown {event : ServerEvent} (accounts : deployment.Accounts platform event) {shown : PageAlert}
    (member : shown ∈ pageAlerts event) : ∃ now collected rule, deployment.Collected collected ∧
      deployment.Ordered platform rule ∧ rule_matches rule (relayed collected) = true ∧
        shown = pageAlert (alertOf now (relayed collected) rule) := by
  cases accounts with
  | @alert now metric rule relays ordered matched =>
    obtain ⟨collected, own, rfl⟩ := relays
    exact ⟨now, collected, rule, own, ordered, matched, List.mem_singleton.mp member⟩
  | _ => cases member

theorem Accounts.said {event : ServerEvent} (accounts : deployment.Accounts platform event) {now : Bytes}
    {item : PageChat} (member : item ∈ pageChat now event) : deployment.Said platform item := by
  cases accounts with
  | chat typed =>
    rw [List.mem_singleton.mp member]
    exact .typed typed
  | system ordered =>
    rw [List.mem_singleton.mp member]
    exact .announced ordered
  | registered =>
    rw [List.mem_singleton.mp member]
    exact .answered
  | added ordered =>
    rw [List.mem_singleton.mp member]
    exact .answered
  | counted =>
    rw [List.mem_singleton.mp member]
    exact .answered
  | refused =>
    rw [List.mem_singleton.mp member]
    exact .refused
  | _ => cases member

/-- Among agents with names and dashboards: once a dashboard has handled all that it
was sent, its page has nothing that it cannot read and shows the server, and nothing
that no agent collected and no user typed. -/
theorem page_accounted_for (js : JavaScript) {order : List Bytes → List Bytes}
    (jsonify : ∀ keys, (order keys).Perm keys) (heard : deployment.Heard platform rounds) (named : deployment.Named)
    {connection : ClientConnection} (member : connection ∈ (Process.run platform rounds).server.clients_)
    (role : connection.role = .Dashboard) {outside : ℕ → Bytes × Json} (clock : ∀ i, Utf8.Valid (outside i).1)
    (aws : Json) (connected : Bool) :
    ∃ last page object screen, handle_events outside ((wire connection.fd
        ((Process.run platform rounds).log.flatMap (Activity.entries platform))).map ServerEvent.toObject) { aws } =
        .ok last ∧ PageState.read order last = some page ∧ page.refresh js connected {} = .ok (object, screen) ∧
      screen.Mirrors js (Process.run platform rounds).server page.alerts page.chat ∧
      deployment.Explains platform page := by
  have accounts : ∀ event ∈ wire connection.fd ((Process.run platform rounds).log.flatMap (Activity.entries platform)),
      deployment.Accounts platform event := fun event sent => by
    obtain ⟨h, inLog, output, inOutputs, rfl⟩ := mem_wire sent
    exact heard.accounts.2 h inLog output inOutputs
  obtain ⟨page, shows, plain, perm, rules, alerts, chat⟩ := (Process.run_refines platform rounds).page_after
    (fun h inLog client _ => heard.lineSound named inLog client)
    (fun h metric inLog accepted => heard.hosts named inLog accepted) member role clock jsonify
    (PageState.read_eq_some_iff.mp (PageState.read_initial jsonify aws)) ⟨Nat.zero_le _, Nat.zero_le _⟩
  obtain ⟨object, refreshed, after⟩ := PageState.refresh_of_plain js connected HistoryObject.After.empty plain
  refine ⟨_, page, object, _, handle_events_toObject outside _ _, PageState.read_eq_some_iff.mpr shows, refreshed,
    PageState.screen_mirrors js connected perm rules after, ?_, ?_, ?_, ?_⟩
  · intro card inCards
    obtain ⟨host, metric, found, rfl⟩ := mem_pageMetrics (perm.subset inCards)
    obtain ⟨collected, own, rfl⟩ := heard.accounts.1.metrics host metric found
    exact ⟨collected, own, rfl⟩
  · intro shown inRules
    rw [rules] at inRules
    obtain ⟨rule, own, rfl⟩ := List.mem_map.mp inRules
    exact ⟨rule, heard.accounts.1.rules rule own, rfl⟩
  · intro shown inAlerts
    rw [alerts] at inAlerts
    obtain ⟨event, sent, here⟩ := List.mem_flatMap.mp (List.mem_of_mem_drop inAlerts)
    exact (accounts event sent).alert_shown here
  · intro item inChat
    rw [chat] at inChat
    obtain ⟨event, sent, now, here⟩ := mem_pageChats (List.mem_of_mem_drop inChat)
    exact (accounts event sent).said here

/-- A dashboard on which an alert command was typed, and an agent that crosses it. -/
theorem page_accounted_for_crossed : ∃ (js : JavaScript) (order : List Bytes → List Bytes) (deployment : Deployment)
    (platform : Platform) (rounds : List Round) (last : DashboardState) (page : PageState) (object : HistoryObject)
    (screen : Screen), PageState.read order last = some page ∧ page.refresh js true {} = .ok (object, screen) ∧
      screen.hostCount = 1 ∧ screen.Mirrors js (Process.run platform rounds).server page.alerts page.chat ∧
      deployment.Explains platform page := by
  obtain ⟨deployment, platform, rounds, heard, -, names, -, -, hosts, ⟨connection, member, -, role⟩, -⟩ := heard_crossed
  have named : deployment.Named := fun agent deployed => by
    rw [names agent deployed]
    exact ⟨by decide, sound_of_printable (by decide), by decide +kernel⟩
  let outside : ℕ → Bytes × Json := fun _ => ([], .null)
  have clock : ∀ i, Utf8.Valid (outside i).1 := fun _ => Utf8.valid_nil
  let order : List Bytes → List Bytes := fun keys => keys.mergeSort fun key other => key ≤ other
  have jsonify : ∀ keys, (order keys).Perm keys := fun keys => List.mergeSort_perm keys _
  obtain ⟨last, page, object, screen, -, shown, refreshed, mirrors, explains⟩ :=
    page_accounted_for wholeNumbers jsonify heard named member role clock .null true
  exact ⟨wholeNumbers, order, deployment, platform, rounds, last, page, object, screen, shown, refreshed,
    mirrors.hostCount.trans hosts, mirrors, explains⟩

end Deployment

end SysNetMon
