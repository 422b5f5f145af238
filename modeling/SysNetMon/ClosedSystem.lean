import SysNetMon.AgentSession
import SysNetMon.AlertDelivery
import SysNetMon.Participants
import SysNetMon.ProcessSteps

/-!
The server among the programs of the repository: at the other ends of its
connections are agents that run and dashboards whose users type.
-/

namespace SysNetMon
open Bytes KeySearch PyStr

/-- The lines handed on are an initial part of those of the stream. -/
theorem Reading.handed_initial {platform : Platform} {process : Process} (reading : Reading platform process) (fd : ℕ) :
    handed fd process.log <+: linesOf (stream fd process.log) := by
  by_cases known : fd ∈ process.server.connections.map Prod.fst
  · obtain ⟨c, member, rfl⟩ := List.mem_map.mp known
    exact ⟨_, (reading.tracks c member).lines.symm⟩
  · rw [reading.closed fd known]

section Handed
variable {fd : ℕ} {log rest : List Activity}

/-- What was handed on stays, and more is added to it, while nothing is accepted. -/
theorem handed_append_of_none (none : ∀ other, .accepted other ∉ rest) :
    (∀ line ∈ handed fd log, line ∈ handed fd (log ++ rest)) ∧
      ∀ call, .handed fd call ∈ rest → call.line ∈ handed fd (log ++ rest) := by
  induction rest using List.reverseRecOn with
  | nil => exact ⟨fun line member => by rwa [List.append_nil], fun call member => absurd member List.not_mem_nil⟩
  | append_singleton rest last ih =>
    obtain ⟨old, new⟩ := ih fun other member => none other (List.mem_append_left _ member)
    have grown : handed fd (log ++ rest) <+: handed fd (log ++ (rest ++ [last])) := by
      rw [← List.append_assoc, handed_append]
      cases last with
      | accepted other => exact absurd (List.mem_append_right _ (List.mem_singleton_self _)) (none other)
      | received => exact List.prefix_rfl
      | closed => exact List.prefix_rfl
      | handed other call =>
        rw [handedStep]
        split
        · exact List.prefix_append _ _
        · exact List.prefix_rfl
    refine ⟨fun line member => grown.subset (old line member), fun call member => ?_⟩
    rcases List.mem_append.mp member with earlier | here
    · exact grown.subset (new call earlier)
    · rw [← List.mem_singleton.mp here, ← List.append_assoc, handed_append, handedStep, if_pos rfl]
      exact List.mem_append_right _ (List.mem_singleton_self _)

/-- Steps that accept nothing only add to the log. -/
theorem ProcessSteps.log_grows {platform : Platform} {process after : Process}
    (steps : ProcessSteps platform (fun _ => False) process after) :
    ∃ rest, after.log = process.log ++ rest ∧ ∀ other, .accepted other ∉ rest := by
  refine steps.invariant (fun after => ∃ rest, after.log = process.log ++ rest ∧ ∀ other, .accepted other ∉ rest)
    ⟨[], (List.append_nil _).symm, fun _ => List.not_mem_nil⟩ ?_
  rintro before after ⟨rest, logged, none⟩ one
  have adding (last : Activity) (grown : after.log = before.log ++ [last]) (other : ∀ fd, last ≠ .accepted fd) :
      ∃ rest, after.log = process.log ++ rest ∧ ∀ fd, .accepted fd ∉ rest := by
    refine ⟨rest ++ [last], by rw [grown, logged, List.append_assoc], fun fd member => ?_⟩
    rcases List.mem_append.mp member with earlier | here
    · exact none fd earlier
    · exact other fd (List.mem_singleton.mp here).symm
  cases one with
  | accept never _ => exact never.elim
  | receive _ => exact adding _ rfl (by simp)
  | erase _ _ => exact ⟨rest, logged, none⟩
  | hand clock atIndex => exact adding _ (before.hand_log _ _) (by simp)
  | @close index client atIndex =>
    refine adding (.closed client.fd) ?_ (by simp)
    rw [Process.disconnect_client, atIndex]
  | abort => exact ⟨rest, logged, none⟩

/-- A round adds what it accepts, if anything, and then what it does with the connections. -/
theorem Process.round_log (platform : Platform) (process : Process) (round : Round) :
    ∃ first rest, (process.round platform round).log = process.log ++ first ++ rest ∧
      (∀ fd call, .handed fd call ∉ first) ∧ ∀ fd, .accepted fd ∉ rest := by
  cases alive : process.ended with
  | some abort =>
    refine ⟨[], [], ?_, fun _ _ => List.not_mem_nil, fun _ => List.not_mem_nil⟩
    rw [Process.round, if_pos (by simp [alive]), List.append_nil, List.append_nil]
  | none =>
    have later : ProcessSteps platform (fun _ => False) _ _ := round_after_accept round alive
    obtain ⟨rest, logged, none⟩ := later.log_grows
    have accepting : ∃ first, (process.accept_connection round.accepted).log = process.log ++ first ∧
        ∀ fd call, .handed fd call ∉ first := by
      unfold accept_connection
      split
      · exact ⟨[], (List.append_nil _).symm, fun _ _ => List.not_mem_nil⟩
      · split
        · exact ⟨[], (List.append_nil _).symm, fun _ _ => List.not_mem_nil⟩
        · exact ⟨_, rfl, by simp⟩
    obtain ⟨first, accepted, unhanded⟩ := accepting
    exact ⟨first, rest, by rw [logged, accepted], unhanded, none⟩

end Handed

theorem forall₂_of_mem_right {α β : Type} {R : α → β → Prop} {as : List α} {bs : List β} (all : List.Forall₂ R as bs)
    {b : β} (member : b ∈ bs) : ∃ a ∈ as, R a b := by
  induction all with
  | nil => cases member
  | cons first rest ih =>
    rcases List.mem_cons.mp member with rfl | later
    · exact ⟨_, List.mem_cons_self, first⟩
    · obtain ⟨a, inAs, related⟩ := ih later
      exact ⟨a, List.mem_cons_of_mem _ inAs, related⟩

/-- Agents with what they have done so far, and dashboards with what their users type. -/
structure Deployment where
  agents : Set (AgentConfig × List AgentEvent)
  ran : ∀ agent ∈ agents, ∃ cpu net tick session, SessionRun agent.1 cpu net tick session agent.2
  dashboards : Set (List UserMessage)

namespace Deployment

def Collected (deployment : Deployment) (metric : MetricSnapshot) : Prop :=
  ∃ agent ∈ deployment.agents, metric ∈ agent.2.filterMap AgentEvent.metric?

def Typed (deployment : Deployment) (message : UserMessage) : Prop :=
  ∃ messages ∈ deployment.dashboards, message ∈ messages

/-- What is written on one connection: by an agent, or by a dashboard whose
calls of `_send` do not overlap. -/
inductive Writes (deployment : Deployment) : Bytes → Prop
  | agent {config log written} : (config, log) ∈ deployment.agents → written ∈ connections log →
      Writes deployment written
  | dashboard {messages} : messages ∈ deployment.dashboards →
      Writes deployment (textOf (Participant.dashboard messages).lines)

/-- After each round, what has arrived on a connection is the beginning of what
is written at its other end. -/
def Heard (deployment : Deployment) (platform : Platform) (rounds : List Round) : Prop :=
  ∀ earlier, earlier <+: rounds → ∀ fd, stream fd (Process.run platform earlier).log ≠ [] →
    ∃ written, deployment.Writes written ∧ stream fd (Process.run platform earlier).log <+: written

/-- A participant whose metrics were collected and whose messages were typed. -/
def Among (deployment : Deployment) (participant : Participant) : Prop :=
  (∀ metric ∈ participant.metrics, deployment.Collected metric) ∧
    ∀ message ∈ participant.messages, deployment.Typed message

variable {deployment : Deployment} {platform : Platform} {rounds : List Round}

theorem Writes.participant {written : Bytes} (writes : deployment.Writes written) :
    ∃ participant, deployment.Among participant ∧ written <+: textOf participant.lines := by
  cases writes with
  | @agent config log _ deployed own =>
    obtain ⟨cpu, net, tick, session, run⟩ := deployment.ran _ deployed
    obtain ⟨parts, all, carried⟩ := moves_carry run.moves.1
    obtain ⟨metrics, inParts, carries⟩ := forall₂_of_mem_right carried.each own
    refine ⟨.agent config.agent_name metrics, ⟨fun metric member => ⟨_, deployed, ?_⟩, List.forall_mem_nil _⟩,
      carries.lines⟩
    rw [← all]
    exact List.mem_flatten.mpr ⟨metrics, inParts, member⟩
  | @dashboard messages deployed =>
    exact ⟨.dashboard messages, ⟨List.forall_mem_nil _, fun message member => ⟨_, deployed, member⟩⟩, List.prefix_rfl⟩

/-- Each line that is handled is one of those written at the other end. -/
theorem Heard.written (heard : deployment.Heard platform rounds) {fd : ℕ} {call : Call}
    (member : .handed fd call ∈ (Process.run platform rounds).log) :
    ∃ written, deployment.Writes written ∧ call.line ∈ linesOf written := by
  induction rounds using List.reverseRecOn with
  | nil => cases member
  | append_singleton rounds round ih =>
    have before : deployment.Heard platform rounds := fun earlier first =>
      heard earlier (first.trans (List.prefix_append _ _))
    have last : Process.run platform (rounds ++ [round]) = (Process.run platform rounds).round platform round := by
      rw [Process.run, List.foldl_append]
      rfl
    obtain ⟨first, rest, logged, unhanded, none⟩ := (Process.run platform rounds).round_log platform round
    rw [← last] at logged
    rw [logged] at member
    rcases List.mem_append.mp member with earlier | here
    · rcases List.mem_append.mp earlier with old | accepting
      · exact ih before old
      · exact absurd accepting (unhanded fd call)
    · have inHanded := (@handed_append_of_none fd ((Process.run platform rounds).log ++ first) rest none).2 call here
      rw [← logged] at inHanded
      have inLines := ((Process.run_reading platform (rounds ++ [round])).1.handed_initial fd).subset inHanded
      have some : stream fd (Process.run platform (rounds ++ [round])).log ≠ [] := by
        intro empty
        rw [empty, linesOf_of_not_mem List.not_mem_nil] at inLines
        cases inLines
      obtain ⟨written, writes, received⟩ := heard _ List.prefix_rfl fd some
      exact ⟨written, writes, (linesOf_initial received).subset inLines⟩

/-- It was written by a participant. -/
theorem Heard.spoken (heard : deployment.Heard platform rounds) {fd : ℕ} {call : Call}
    (member : .handed fd call ∈ (Process.run platform rounds).log) :
    ∃ participant, deployment.Among participant ∧ Spoken participant call.line := by
  obtain ⟨written, writes, inLines⟩ := heard.written member
  obtain ⟨participant, among, text⟩ := writes.participant
  exact ⟨participant, among,
    participant.spoken ((linesOf_of_prefix_textOf participant.wireLines text).subset inLines)⟩

/-- A metric as the server has it, of one that an agent collected. -/
def Relays (deployment : Deployment) (metric : MetricSnapshot) : Prop :=
  ∃ collected, deployment.Collected collected ∧ metric = relayed collected

/-- A rule as a user typed it. -/
def Ordered (deployment : Deployment) (platform : Platform) (rule : AlertRule) : Prop :=
  ∃ text, deployment.Typed (.command text) ∧ parse_alert_command platform (wireText text) = .ok (some rule)

/-- The events that the deployment accounts for. -/
inductive Accounts (deployment : Deployment) (platform : Platform) : ServerEvent → Prop
  | registered {role} : Accounts deployment platform (.ack (ascii "registered as " ++ role))
  | added {rule} : deployment.Ordered platform rule →
      Accounts deployment platform (.ack (ascii "rule added: " ++ rule.raw_command))
  | counted {n} : Accounts deployment platform (.ack (ascii "connected agents: " ++ Decimal.digits n))
  | refused {message} : Accounts deployment platform (.error message)
  | snapshot {now metrics} : (∀ host metric, metrics.lookup host = some metric → deployment.Relays metric) →
      Accounts deployment platform (.snapshot now metrics)
  | metric {data} : deployment.Relays data → Accounts deployment platform (.metric data)
  | alert {now metric rule} : deployment.Relays metric → deployment.Ordered platform rule →
      rule_matches rule metric = true → Accounts deployment platform (.alert (alertOf now metric rule))
  | chat {sender text now} : deployment.Typed (.chat sender text) →
      Accounts deployment platform (.chat ⟨wireText sender, wireText text, iso_timestamp now⟩)
  | system {rule now} : deployment.Ordered platform rule →
      Accounts deployment platform
        (.chat ⟨ascii "system", ascii "Registered alert rule: " ++ rule.raw_command, iso_timestamp now⟩)
  | rules {items} : (∀ rule ∈ items, deployment.Ordered platform rule) → Accounts deployment platform (.rules items)

/-- All that the server holds was collected or typed. -/
structure Sourced (deployment : Deployment) (platform : Platform) (server : MonitorServer) : Prop where
  metrics : ∀ host metric, server.latest_metrics_.lookup host = some metric → deployment.Relays metric
  rules : ∀ rule ∈ server.alert_rules_, deployment.Ordered platform rule

section Line
variable {server after : MonitorServer} {clock : ℕ → Tm} {index : ℕ} {client : ClientConnection} {line : Bytes}
  {outputs : List Output} {participant : Participant}

theorem Sourced.store (sourced : deployment.Sourced platform server) {metric : MetricSnapshot}
    (relays : deployment.Relays metric) :
    deployment.Sourced platform (server.store clock metric).1 ∧
      ∀ output ∈ (server.store clock metric).2, deployment.Accounts platform output.event := by
  refine ⟨⟨fun host stored found => ?_, sourced.rules⟩, List.forall_mem_cons.mpr ⟨.metric relays, ?_⟩⟩
  · rw [MonitorServer.store] at found
    by_cases same : host = metric.host
    · rw [same, AList.lookup_insert] at found
      exact Option.some.inj found ▸ relays
    · rw [AList.lookup_insert_ne same] at found
      exact sourced.metrics host stored found
  · intro output member
    obtain ⟨alert, raised, rfl⟩ := List.mem_map.mp member
    obtain ⟨rule, registered, matched, now, rfl⟩ := evaluate_rules_sound raised
    exact .alert relays (sourced.rules rule registered) matched

/-- A line of a participant leaves the server with what was collected and typed,
and tells of nothing else. -/
theorem Sourced.handle (sourced : deployment.Sourced platform server) (among : deployment.Among participant)
    (spoken : Spoken participant line)
    (handling : Handling platform server clock index client line after outputs) :
    deployment.Sourced platform after ∧ ∀ output ∈ outputs, deployment.Accounts platform output.event := by
  cases handling with
  | register is =>
    refine ⟨⟨sourced.metrics, sourced.rules⟩, List.forall_mem_cons.mpr ⟨.registered, ?_⟩⟩
    split
    · exact List.forall_mem_cons.mpr ⟨.snapshot sourced.metrics, List.forall_mem_singleton.mpr (.rules sourced.rules)⟩
    · exact List.forall_mem_nil _
  | @store metric is role read =>
    obtain ⟨collected, own, rfl⟩ := spoken.of_metrics is
    rw [read_metric_payload] at read
    exact sourced.store ⟨collected, among.1 collected own, (Except.ok.inj read).symm⟩
  | @addRule rule is parsed =>
    obtain ⟨text, own, rfl⟩ := spoken.of_command is
    rw [lineText_command] at parsed
    have ordered : deployment.Ordered platform rule := ⟨text, among.2 _ own, parsed⟩
    have rules : ∀ other ∈ server.alert_rules_ ++ [rule], deployment.Ordered platform other :=
      List.forall_mem_append.mpr ⟨sourced.rules, List.forall_mem_singleton.mpr ordered⟩
    exact ⟨⟨sourced.metrics, rules⟩, List.forall_mem_cons.mpr ⟨.system ordered,
      List.forall_mem_cons.mpr ⟨.rules rules, List.forall_mem_singleton.mpr (.added ordered)⟩⟩⟩
  | listRules is => exact ⟨sourced, List.forall_mem_singleton.mpr (.rules sourced.rules)⟩
  | countHosts is => exact ⟨sourced, List.forall_mem_singleton.mpr .counted⟩
  | chat is =>
    obtain ⟨sender, text, own, rfl⟩ := spoken.of_chat is
    refine ⟨sourced, List.forall_mem_singleton.mpr ?_⟩
    rw [chat_send_chat]
    exact .chat (among.2 _ own)
  | refuse => exact ⟨sourced, List.forall_mem_singleton.mpr .refused⟩

end Line

/-- Along a run that handles lines of participants only. -/
theorem sourced_of_run {server : MonitorServer} {log : List Entry} (run : ServerRun platform server log)
    (spoken : ∀ h, .handled h ∈ log → ∃ participant, deployment.Among participant ∧ Spoken participant h.line) :
    deployment.Sourced platform server ∧
      ∀ h, .handled h ∈ log → ∀ output ∈ h.outputs, deployment.Accounts platform output.event := by
  revert spoken
  refine run.invariant (fun server log =>
    (∀ h, .handled h ∈ log → ∃ participant, deployment.Among participant ∧ Spoken participant h.line) →
      deployment.Sourced platform server ∧
        ∀ h, .handled h ∈ log → ∀ output ∈ h.outputs, deployment.Accounts platform output.event) ?_ ?_
  · exact fun _ => ⟨⟨fun host metric found => absurd found (by simp), List.forall_mem_nil _⟩,
      fun h member => absurd member List.not_mem_nil⟩
  intro server after log entries _ ih one spoken
  obtain ⟨sourced, accounts⟩ := ih fun h member => spoken h (List.mem_append_left _ member)
  cases one with
  | accept fresh => exact ⟨⟨sourced.metrics, sourced.rules⟩, by simpa using accounts⟩
  | buffer => exact ⟨⟨sourced.metrics, sourced.rules⟩, by simpa using accounts⟩
  | disconnect atIndex => exact ⟨⟨sourced.metrics, sourced.rules⟩, by simpa using accounts⟩
  | handle handled =>
    obtain ⟨participant, among, line⟩ := spoken _ (List.mem_append_right _ (List.mem_singleton_self _))
    obtain ⟨client, -, handling⟩ := MonitorServer.handle_line_cases handled
    obtain ⟨sourced', accounts'⟩ := sourced.handle among line handling
    refine ⟨sourced', fun h member => ?_⟩
    rcases List.mem_append.mp member with old | new
    · exact accounts h old
    · cases List.mem_singleton.mp new
      exact accounts'

end Deployment

section Greeting
variable {platform : Platform} {fd : ℕ} {process after : Process}

/-- The elementary steps are steps of the server, as far as they are seen in the log. -/
theorem ProcessSteps.reached {admits : ℕ → Prop} (steps : ProcessSteps platform admits {} process) :
    ServerRun platform process.server (process.log.flatMap (Activity.entries platform)) := by
  refine steps.invariant (fun process =>
    ServerRun platform process.server (process.log.flatMap (Activity.entries platform))) .start ?_
  intro before after reached one
  cases one with
  | accept _ fresh =>
    rw [List.flatMap_append]
    exact reached.next (.accept fresh)
  | receive _ =>
    rw [List.flatMap_append]
    exact reached.next .buffer
  | erase _ _ =>
    rw [← List.append_nil (List.flatMap _ _)]
    exact reached.next .buffer
  | @hand index client line clock atIndex =>
    unfold Process.hand
    dsimp only
    cases result : (Call.mk before.server clock index line).result platform with
    | error abort =>
      rw [List.flatMap_append, List.flatMap_singleton, Activity.entries, result, List.append_nil]
      exact reached
    | ok handled =>
      rw [List.flatMap_append, List.flatMap_singleton, Activity.entries, result]
      exact reached.next (.handle result)
  | @close index client atIndex =>
    rw [Process.disconnect_client, atIndex]
    dsimp only
    rw [List.flatMap_append]
    exact reached.next (.disconnect atIndex)
  | abort => exact reached

/-- A broadcast puts nothing on a connection that is not a dashboard. -/
theorem MonitorServer.linesTo_broadcast_of_other {server : MonitorServer}
    (other : ∀ client ∈ server.clients_, client.fd = fd → client.role ≠ .Dashboard) (event : ServerEvent) :
    (server.broadcast_to_dashboards event).linesTo fd = [] := by
  rw [broadcast_to_dashboards, Output.linesTo, List.map_eq_nil_iff, List.filter_eq_nil_iff]
  intro target member same
  obtain ⟨client, inClients, rfl⟩ := List.mem_map.mp member
  obtain ⟨known, role⟩ := List.mem_filter.mp inClients
  exact other client known (of_decide_eq_true same) (of_decide_eq_true role)

/-- A line is answered to the connection it came from and to the dashboards. -/
theorem Handling.replies_own {server after : MonitorServer} {clock : ℕ → Tm} {index : ℕ} {client : ClientConnection}
    {line : Bytes} {outputs : List Output} (handling : Handling platform server clock index client line after outputs) :
    ∀ output ∈ outputs, (∃ event, output = server.broadcast_to_dashboards event) ∨
      ∃ event, output = .send_line client.fd event := by
  have reply (event : ServerEvent) : (∃ event', Output.send_line client.fd event = server.broadcast_to_dashboards event') ∨
      ∃ event', Output.send_line client.fd event = .send_line client.fd event' := Or.inr ⟨event, rfl⟩
  have tell (event : ServerEvent) : (∃ event', server.broadcast_to_dashboards event = server.broadcast_to_dashboards event') ∨
      ∃ event', server.broadcast_to_dashboards event = .send_line client.fd event' := Or.inl ⟨event, rfl⟩
  cases handling with
  | register is =>
    refine List.forall_mem_cons.mpr ⟨reply _, ?_⟩
    split
    · exact List.forall_mem_cons.mpr ⟨reply _, List.forall_mem_singleton.mpr (reply _)⟩
    · exact List.forall_mem_nil _
  | store is role read =>
    refine List.forall_mem_cons.mpr ⟨tell _, fun output member => ?_⟩
    obtain ⟨alert, -, rfl⟩ := List.mem_map.mp member
    exact tell _
  | addRule is parsed =>
    exact List.forall_mem_cons.mpr ⟨tell _, List.forall_mem_cons.mpr ⟨tell _, List.forall_mem_singleton.mpr (reply _)⟩⟩
  | chat is => exact List.forall_mem_singleton.mpr (tell _)
  | listRules is => exact List.forall_mem_singleton.mpr (reply _)
  | countHosts is => exact List.forall_mem_singleton.mpr (reply _)
  | refuse => exact List.forall_mem_singleton.mpr (reply _)

/-- What an agent is sent for the lines that were handled. -/
def greeting : List Bytes → List ServerEvent
  | [] => []
  | _ :: _ => [.ack (ascii "registered as agent")]

def greetedRole : List Bytes → ClientRole
  | [] => .Unknown
  | _ :: _ => .Agent

/-- A connection on which an agent was greeted, and no more. -/
structure Greeted (platform : Platform) (fd : ℕ) (process : Process) : Prop where
  sent : wire fd (process.log.flatMap (Activity.entries platform)) = greeting (handed fd process.log)
  role : ∀ client ∈ process.server.clients_, client.fd = fd → client.role = greetedRole (handed fd process.log)

theorem greetedRole_ne_dashboard (lines : List Bytes) : greetedRole lines ≠ .Dashboard := by
  cases lines with
  | nil => exact fun is => by cases is
  | cons => exact fun is => by cases is

/-- What an agent writes is a register and then metrics. -/
def Agentlike (lines : List Bytes) : Prop := ∃ agent_name metrics, lines <+: agentLines agent_name metrics

theorem Agentlike.of_append {lines more : List Bytes} (agentlike : Agentlike (lines ++ more)) : Agentlike lines := by
  obtain ⟨agent_name, metrics, first⟩ := agentlike
  exact ⟨agent_name, metrics, (List.prefix_append _ _).trans first⟩

theorem Agentlike.last {lines : List Bytes} {line : Bytes} (agentlike : Agentlike (lines ++ [line])) :
    (lines = [] ∧ ∃ agent_name, line = register_message agent_name) ∨
      (lines ≠ [] ∧ ∃ metric, line = metrics_payload metric) := by
  obtain ⟨agent_name, metrics, first⟩ := agentlike
  cases lines with
  | nil =>
    obtain ⟨same, -⟩ := List.cons_prefix_cons.mp first
    exact Or.inl ⟨rfl, agent_name, same⟩
  | cons head lines =>
    have later := (List.cons_prefix_cons.mp first).2
    have member : line ∈ metrics.map metrics_payload := later.subset (by simp)
    obtain ⟨metric, -, rfl⟩ := List.mem_map.mp member
    exact Or.inr ⟨List.cons_ne_nil _ _, metric, rfl⟩

/-- Where neither the lines nor the connection under `fd` change, nothing more is sent. -/
theorem Greeted.same (greeted : Greeted platform fd process) {entries : List Activity}
    (logged : after.log = process.log ++ entries) (handed' : handed fd after.log = handed fd process.log)
    (quiet : (entries.flatMap (Activity.entries platform)).foldl (wireStep fd) (greeting (handed fd process.log)) =
      greeting (handed fd process.log))
    (role : ∀ client ∈ after.server.clients_, client.fd = fd →
      ∃ before ∈ process.server.clients_, before.fd = fd ∧ client.role = before.role) : Greeted platform fd after := by
  refine ⟨?_, fun client member same => ?_⟩
  · rw [logged, List.flatMap_append, wire_append, greeted.sent, quiet, ← logged, handed']
  · obtain ⟨before, known, own, is⟩ := role client member same
    rw [is, handed', greeted.role before known own]

/-- Setting a buffer leaves the roles. -/
theorem role_setBuffer {server : MonitorServer} {index : ℕ} {pending : Bytes} :
    ∀ client ∈ (server.setBuffer index pending).clients_, client.fd = fd →
      ∃ before ∈ server.clients_, before.fd = fd ∧ client.role = before.role := by
  intro client member same
  rcases MonitorServer.mem_modifyClient member with ⟨before, atIndex, rfl⟩ | ⟨i, -, atI⟩
  · exact ⟨before, List.mem_of_getElem? atIndex, same, rfl⟩
  · exact ⟨client, List.mem_of_getElem? atI, same, rfl⟩

/-- A line of another connection. -/
theorem Greeted.hand_other (greeted : Greeted platform fd process) {index : ℕ} {client : ClientConnection}
    {line : Bytes} (clock : ℕ → Tm) (atIndex : process.server.clients_[index]? = some client) (other : client.fd ≠ fd) :
    Greeted platform fd (process.hand platform client.fd ⟨process.server, clock, index, line⟩) := by
  have unhanded (call : Call) : handed fd (process.log ++ [.handed client.fd call]) = handed fd process.log := by
    rw [handed_append, handedStep, if_neg other]
  have apart : ∀ connection ∈ process.server.clients_, connection.fd = fd → connection.role ≠ .Dashboard := by
    intro connection known same role
    exact greetedRole_ne_dashboard _ ((greeted.role connection known same).symm.trans role)
  unfold Process.hand
  dsimp only
  cases result : (Call.mk process.server clock index line).result platform with
  | error abort =>
    refine greeted.same rfl (unhanded _) ?_ fun connection member same => ⟨connection, member, same, rfl⟩
    rw [List.flatMap_singleton, Activity.entries, result]
    rfl
  | ok handled =>
    obtain ⟨server, outputs⟩ := handled
    obtain ⟨known, atIndex', handling⟩ := MonitorServer.handle_line_cases result
    obtain rfl : client = known := Option.some.inj (atIndex.symm.trans atIndex')
    have none : outputs.flatMap (Output.linesTo fd) = [] := by
      rw [List.flatMap_eq_nil_iff]
      intro output member
      rcases handling.replies_own output member with ⟨event, rfl⟩ | ⟨event, rfl⟩
      · exact MonitorServer.linesTo_broadcast_of_other apart event
      · exact Output.linesTo_send_line_ne other event
    refine greeted.same rfl (unhanded _) ?_ fun connection member same => ?_
    · rw [List.flatMap_singleton, Activity.entries, result]
      change greeting _ ++ outputs.flatMap (Output.linesTo fd) = _
      rw [none, List.append_nil]
    · obtain ⟨identities, others⟩ := MonitorServer.handle_line_keeps result
      obtain ⟨i, atI⟩ := List.getElem?_of_mem member
      by_cases here : i = index
      · subst here
        have kept := congrArg (fun l => l[i]?) identities
        simp only [List.getElem?_map, atI, atIndex, Option.map_some, Option.some.injEq] at kept
        exact absurd ((congrArg Prod.fst kept).symm.trans same) other
      · exact ⟨connection, List.mem_of_getElem? ((others i here).symm.trans atI), same, rfl⟩

/-- A line of the agent itself. -/
theorem Greeted.hand_own (greeted : Greeted platform fd process)
    (distinct : (process.server.clients_.map ClientConnection.fd).Nodup) {index : ℕ} {client : ClientConnection}
    {line : Bytes} (clock : ℕ → Tm) (atIndex : process.server.clients_[index]? = some client) (own : client.fd = fd)
    (agentlike : Agentlike (handed fd process.log ++ [line])) :
    Greeted platform fd (process.hand platform client.fd ⟨process.server, clock, index, line⟩) := by
  subst own
  have longer (call : Call) (is : call.line = line) :
      handed client.fd (process.log ++ [.handed client.fd call]) = handed client.fd process.log ++ [line] := by
    rw [handed_append, handedStep, if_pos rfl, is]
  have known : client ∈ process.server.clients_ := List.mem_of_getElem? atIndex
  have role := greeted.role client known rfl
  have apart : ∀ connection ∈ process.server.clients_, connection.fd = client.fd → connection.role ≠ .Dashboard := by
    intro connection member same
    rw [greeted.role connection member same]
    exact greetedRole_ne_dashboard _
  rcases agentlike.last with ⟨none, agent_name, rfl⟩ | ⟨some, metric, rfl⟩
  · rw [none] at role
    obtain ⟨outputs, declared_host, registered⟩ :=
      process.server.register_agent clock index client agent_name
    have result : (Call.mk process.server clock index (register_message agent_name)).result platform = _ :=
      MonitorServer.handle_line_register_message atIndex agent_name
    unfold Process.hand
    dsimp only
    rw [result]
    dsimp only
    refine ⟨?_, fun connection member same => ?_⟩
    · rw [longer _ rfl, none, List.flatMap_append, wire_append, greeted.sent, none, List.flatMap_singleton, Activity.entries,
        result]
      dsimp only
      rw [outputs]
      exact congrArg (fun sent => sent ++ []) (Output.linesTo_send_line_self client.fd _)
    · rw [longer _ rfl, none]
      rw [registered] at member
      rcases MonitorServer.mem_modifyClient member with ⟨before, atBefore, rfl⟩ | ⟨i, elsewhere, atI⟩
      · rfl
      · exact absurd same (Ne.symm (MonitorServer.fd_ne distinct atIndex atI (Ne.symm elsewhere)))
  · obtain ⟨head, rest, shape⟩ := List.exists_cons_of_ne_nil some
    rw [shape] at role
    have result : (Call.mk process.server clock index (metrics_payload metric)).result platform = _ :=
      MonitorServer.handle_line_payload atIndex role metric
    have none :
        (process.server.store (fun i => clock (i + 1)) (relayed metric)).2.flatMap (Output.linesTo client.fd) = [] := by
      rw [List.flatMap_eq_nil_iff]
      refine List.forall_mem_cons.mpr ⟨MonitorServer.linesTo_broadcast_of_other apart _, fun output member => ?_⟩
      obtain ⟨alert, -, rfl⟩ := List.mem_map.mp member
      exact MonitorServer.linesTo_broadcast_of_other apart _
    unfold Process.hand
    dsimp only
    rw [result]
    dsimp only
    refine ⟨?_, fun connection member same => ?_⟩
    · rw [longer _ rfl, List.flatMap_append, wire_append, greeted.sent, List.flatMap_singleton, Activity.entries, result,
        shape]
      exact (congrArg (fun sent => greeting (head :: rest) ++ sent) none).trans (List.append_nil _)
    · rw [longer _ rfl, greeted.role connection member same, shape]
      rfl

/-- One elementary step. -/
theorem Greeted.step {admits : ℕ → Prop} (ih : Agentlike (handed fd process.log) → Greeted platform fd process)
    (distinct : (process.server.clients_.map ClientConnection.fd).Nodup)
    (one : ProcessStep platform admits process after) (agentlike : Agentlike (handed fd after.log)) :
    Greeted platform fd after := by
  cases one with
  | @accept other peer _ fresh =>
    by_cases own : other = fd
    · subst own
      have none : handed other (process.log ++ [.accepted other]) = [] := by
        rw [handed_append, handedStep, if_pos rfl]
      refine ⟨?_, fun client member same => ?_⟩
      · rw [none, List.flatMap_append, wire_append]
        exact if_pos rfl
      · rw [none]
        rcases List.mem_append.mp member with old | new
        · exact absurd same (Ne.symm (MonitorServer.ne_of_fresh fresh old))
        · rw [List.mem_singleton.mp new]
          rfl
    · have kept : handed fd (process.log ++ [.accepted other]) = handed fd process.log := by
        rw [handed_append, handedStep, if_neg own]
      refine (ih (kept ▸ agentlike)).same rfl kept (if_neg own) fun client member same => ?_
      rcases List.mem_append.mp member with old | new
      · exact ⟨client, old, same, rfl⟩
      · rw [List.mem_singleton.mp new] at same
        exact absurd same own
  | @receive index client chunk atIndex =>
    have kept : handed fd (process.log ++ [.received client.fd chunk]) = handed fd process.log := handed_append ..
    exact (ih (kept ▸ agentlike)).same rfl kept rfl role_setBuffer
  | erase atIndex first => exact (ih agentlike).same (List.append_nil _).symm rfl rfl role_setBuffer
  | @hand index client line clock atIndex =>
    rw [process.hand_log, handed_append, handedStep] at agentlike
    by_cases own : client.fd = fd
    · rw [if_pos own] at agentlike
      exact (ih agentlike.of_append).hand_own distinct clock atIndex own agentlike
    · rw [if_neg own] at agentlike
      exact (ih agentlike).hand_other clock atIndex own
  | @close index client atIndex =>
    rw [Process.disconnect_client, atIndex] at agentlike ⊢
    have kept : handed fd (process.log ++ [.closed client.fd]) = handed fd process.log := handed_append ..
    exact (ih (kept ▸ agentlike)).same rfl kept rfl fun connection member same =>
      ⟨connection, List.mem_of_mem_eraseIdx member, same, rfl⟩
  | abort => exact (ih agentlike).same (List.append_nil _).symm rfl rfl fun client member same => ⟨client, member, same, rfl⟩

theorem Greeted.steps {admits : ℕ → Prop} (steps : ProcessSteps platform admits {} process) :
    Agentlike (handed fd process.log) → Greeted platform fd process := by
  induction steps with
  | refl => exact fun _ => ⟨rfl, List.forall_mem_nil _⟩
  | tail earlier one ih => exact Greeted.step ih (ServerRun.fds_nodup (ProcessSteps.reached earlier)) one

/-- Whatever the other connections bring: a connection that receives what an agent
writes is acknowledged once, with its first line, is registered as an agent from
then on, and is sent nothing else. So an agent that never reads holds nothing up. -/
theorem agent_connection_sent_one_line (platform : Platform) (rounds : List Round) {fd : ℕ} {agent_name : Bytes}
    {metrics : List MetricSnapshot}
    (agent : stream fd (Process.run platform rounds).log <+: textOf (agentLines agent_name metrics)) :
    Greeted platform fd (Process.run platform rounds) := by
  have wireLines := (Participant.agent agent_name metrics).wireLines
  have read := linesOf_of_prefix_textOf wireLines agent
  exact Greeted.steps (Process.run_steps platform rounds)
    ⟨agent_name, metrics, ((Process.run_reading platform rounds).1.handed_initial fd).trans read⟩

/-- An agent that has sent its register line. -/
theorem agent_connection_sent_one_line_registered : ∃ platform rounds,
    handed 4 (Process.run platform rounds).log = [register_message (ascii "web")] ∧
      Greeted platform 4 (Process.run platform rounds) := by
  let platform : Platform := ⟨fun _ => false⟩
  let clock : ℕ → ℕ → ℕ → Tm := fun _ _ _ => ⟨2024, 1, 2, 3, 4, 5⟩
  let rounds : List Round :=
    [⟨some (4, ⟨(127, 0, 0, 1), 50000⟩), fun _ => .idle, clock⟩,
     ⟨none, fun _ => .readable (register_message (ascii "web") ++ [newline]), clock⟩]
  have agent : stream 4 (Process.run platform rounds).log <+: textOf (agentLines (ascii "web") []) := by decide +kernel
  exact ⟨platform, rounds, by decide +kernel, agent_connection_sent_one_line platform rounds agent⟩

end Greeting

namespace Deployment
variable {deployment : Deployment} {platform : Platform} {rounds : List Round}

theorem handled_of_entries {log : List Activity} {h : Handled}
    (member : .handled h ∈ log.flatMap (Activity.entries platform)) :
    ∃ fd call, .handed fd call ∈ log ∧ h.line = call.line := by
  obtain ⟨a, inLog, inEntries⟩ := List.mem_flatMap.mp member
  cases a with
  | accepted => simp [Activity.entries] at inEntries
  | received => simp [Activity.entries] at inEntries
  | closed => simp [Activity.entries] at inEntries
  | handed fd call =>
    refine ⟨fd, call, inLog, ?_⟩
    cases result : call.result platform with
    | error abort => simp [Activity.entries, result] at inEntries
    | ok returned =>
      rw [Activity.entries, result] at inEntries
      cases List.mem_singleton.mp inEntries
      rfl

/-- Each call is made for an open connection. -/
theorem call_at {admits : ℕ → Prop} {process : Process} (steps : ProcessSteps platform admits {} process) :
    ∀ fd call, .handed fd call ∈ process.log → ∃ client, call.before.clients_[call.index]? = some client := by
  refine steps.invariant (fun process => ∀ fd call, .handed fd call ∈ process.log →
    ∃ client, call.before.clients_[call.index]? = some client) (fun _ _ member => absurd member List.not_mem_nil) ?_
  intro before after ih one fd call member
  have earlier {other : Activity} (grown : .handed fd call ∈ before.log ++ [other]) (different : other ≠ .handed fd call) :
      ∃ client, call.before.clients_[call.index]? = some client := by
    rcases List.mem_append.mp grown with old | new
    · exact ih fd call old
    · exact absurd (List.mem_singleton.mp new).symm different
  cases one with
  | accept _ _ => exact earlier member (by simp)
  | receive _ => exact earlier member (by simp)
  | erase _ _ => exact ih fd call member
  | @hand index client line clock atIndex =>
    rw [before.hand_log] at member
    rcases List.mem_append.mp member with old | new
    · exact ih fd call old
    · cases List.mem_singleton.mp new
      exact ⟨client, atIndex⟩
  | @close index client atIndex =>
    rw [Process.disconnect_client, atIndex] at member
    exact earlier member (by simp)
  | abort => exact ih fd call member

/-- Among agents and dashboards the server goes on for good, unless a user types an
alert command whose threshold is out of range: nothing that an agent reports ends it. -/
theorem survives_iff_commands_in_range (heard : deployment.Heard platform rounds) :
    (Process.run platform rounds).ended = none ↔
      ∀ fd call text, .handed fd call ∈ (Process.run platform rounds).log → deployment.Typed (.command text) →
        call.line = dumps (send_command text) → CommandInRange platform text := by
  have survives := (Process.run_reading platform rounds).1.survives
  simp only [Call.result_ok_iff] at survives
  rw [survives]
  constructor
  · intro range fd call text member _ is
    obtain ⟨client, -, inRange⟩ := range fd call member
    rw [is] at inRange
    exact commandInRange_of_line inRange
  · intro range fd call member
    obtain ⟨participant, among, spoken⟩ := heard.spoken member
    obtain ⟨client, atIndex⟩ := call_at (Process.run_steps platform rounds) fd call member
    exact ⟨client, atIndex, spoken.lineInRange client fun text typed is => range fd call text member (among.2 _ typed) is⟩

/-- The run of the server on what its participants write. -/
theorem Heard.accounts (heard : deployment.Heard platform rounds) :
    deployment.Sourced platform (Process.run platform rounds).server ∧
      ∀ h, .handled h ∈ (Process.run platform rounds).log.flatMap (Activity.entries platform) →
        ∀ output ∈ h.outputs, deployment.Accounts platform output.event := by
  refine sourced_of_run (Process.run_refines platform rounds) fun h member => ?_
  obtain ⟨fd, call, inLog, is⟩ := handled_of_entries member
  rw [is]
  exact heard.spoken inLog

/-- Among agents and dashboards the server holds no metric that no agent collected
and no rule that no user typed, and no connection is sent an event about another:
an alert is about a metric that an agent collected and crosses a rule that was typed. -/
theorem events_accounted_for (heard : deployment.Heard platform rounds) :
    deployment.Sourced platform (Process.run platform rounds).server ∧
      ∀ fd, ∀ event ∈ wire fd ((Process.run platform rounds).log.flatMap (Activity.entries platform)),
        deployment.Accounts platform event := by
  refine ⟨heard.accounts.1, fun fd event member => ?_⟩
  obtain ⟨h, inLog, output, inOutputs, rfl⟩ := mem_wire member
  exact heard.accounts.2 h inLog output inOutputs

theorem stream_of_none {fd : ℕ} {log : List Activity} (none : ∀ a ∈ log, a.fd ≠ fd) : stream fd log = [] := by
  induction log using List.reverseRecOn with
  | nil => rfl
  | append_singleton log a ih =>
    rw [(untouched (none a (List.mem_append_right _ (List.mem_singleton_self a))) log).1]
    exact ih fun other member => none other (List.mem_append_left _ member)

/-- A list of what is written at the other ends is enough where the log has no
other connections, and on each of them a part of it has arrived. -/
theorem heard_of_inits {texts : List (ℕ × Bytes)} (writes : ∀ text ∈ texts, deployment.Writes text.2)
    (tested : (rounds.inits.all fun earlier =>
      ((Process.run platform earlier).log.all fun a => texts.any fun text => text.1 == a.fd) &&
        texts.all fun text => (stream text.1 (Process.run platform earlier).log).isPrefixOf text.2) = true) :
    deployment.Heard platform rounds := by
  intro earlier first fd some
  have here := List.all_eq_true.mp tested earlier ((List.mem_inits _ _).mpr first)
  rw [Bool.and_eq_true, List.all_eq_true, List.all_eq_true] at here
  by_cases named : ∃ a ∈ (Process.run platform earlier).log, a.fd = fd
  · obtain ⟨a, inLog, rfl⟩ := named
    obtain ⟨text, inTexts, own⟩ := List.any_eq_true.mp (here.1 a inLog)
    have part := List.isPrefixOf_iff_prefix.mp (here.2 text inTexts)
    rw [beq_iff_eq.mp own] at part
    exact ⟨text.2, writes text inTexts, part⟩
  · exact absurd (stream_of_none fun a inLog same => named ⟨a, inLog, same⟩) some

/-- A dashboard on which an alert command and a chat message with quotes are typed,
and an agent that reports a load above the threshold. -/
theorem heard_crossed : ∃ (deployment : Deployment) (platform : Platform) (rounds : List Round),
    deployment.Heard platform rounds ∧ (∃ metric, deployment.Collected metric) ∧
      (∀ agent ∈ deployment.agents, agent.1.agent_name = ascii "web") ∧
      (Process.run platform rounds).ended = none ∧ (Process.run platform rounds).server.alert_rules_.length = 1 ∧
      (Process.run platform rounds).server.latest_metrics_.keys.length = 1 ∧
      (∃ connection ∈ (Process.run platform rounds).server.clients_, connection.fd = 4 ∧ connection.role = .Dashboard) ∧
      (wire 4 ((Process.run platform rounds).log.flatMap (Activity.entries platform))).countP ServerEvent.isAlert = 1 ∧
      ∃ message, .chat message ∈ wire 4 ((Process.run platform rounds).log.flatMap (Activity.entries platform)) ∧
        message.text = ascii "say \\" := by
  obtain ⟨session, log, first, second, run, metrics, streams, -⟩ := SessionRun.reported
  let messages : List UserMessage :=
    [.command (pyLiteral "/alert CPU>80%"), .chat (pyLiteral "me") (pyLiteral "say \"hi\"")]
  let deployment : Deployment :=
    ⟨{(⟨ascii "127.0.0.1", 9090, ascii "web", 5, false⟩, log)}, fun _ only => only ▸ ⟨_, _, _, _, run⟩, {messages}⟩
  let platform : Platform := ⟨fun _ => false⟩
  let clock : ℕ → ℕ → ℕ → Tm := fun _ _ _ => ⟨2024, 1, 2, 3, 4, 5⟩
  let typed := textOf (Participant.dashboard messages).lines
  let rounds : List Round :=
    [⟨some (4, ⟨(127, 0, 0, 1), 50000⟩), fun _ => .idle, clock⟩,
     ⟨some (5, ⟨(127, 0, 0, 1), 50001⟩), fun _ => .idle, clock⟩,
     ⟨none, fun fd => if fd = 4 then .readable typed else .readable reportedStream, clock⟩]
  have writes : ∀ text ∈ [(4, typed), (5, reportedStream)], deployment.Writes text.2 := by
    refine List.forall_mem_cons.mpr ⟨.dashboard rfl, List.forall_mem_singleton.mpr (.agent rfl ?_)⟩
    exact streams ▸ List.mem_singleton_self _
  have tested : ((rounds.inits.all fun earlier =>
        ((Process.run platform earlier).log.all fun a =>
          [(4, typed), (5, reportedStream)].any fun text => text.1 == a.fd) &&
          [(4, typed), (5, reportedStream)].all fun text =>
            (stream text.1 (Process.run platform earlier).log).isPrefixOf text.2) &&
      (Process.run platform rounds).ended.isNone &&
      (Process.run platform rounds).server.alert_rules_.length == 1 &&
      (Process.run platform rounds).server.latest_metrics_.keys.length == 1 &&
      ((Process.run platform rounds).server.clients_.any fun connection =>
        decide (connection.fd = 4 ∧ connection.role = .Dashboard)) &&
      (wire 4 ((Process.run platform rounds).log.flatMap (Activity.entries platform))).countP ServerEvent.isAlert ==
        1 &&
      (wire 4 ((Process.run platform rounds).log.flatMap (Activity.entries platform))).any fun event =>
        match event with
        | .chat message => message.text == ascii "say \\"
        | _ => false) = true := by decide +kernel
  rw [Bool.and_eq_true, Bool.and_eq_true, Bool.and_eq_true, Bool.and_eq_true, Bool.and_eq_true, Bool.and_eq_true,
    beq_iff_eq, beq_iff_eq, beq_iff_eq] at tested
  obtain ⟨⟨⟨⟨⟨⟨inits, alive⟩, rules⟩, hosts⟩, dashboard⟩, alerts⟩, chat⟩ := tested
  refine ⟨deployment, platform, rounds, heard_of_inits writes inits, ⟨first, _, rfl, metrics ▸ List.mem_cons_self⟩, ?_,
    Option.isNone_iff_eq_none.mp alive, rules, hosts, ?_, alerts, ?_⟩
  · rintro agent rfl
    rfl
  · obtain ⟨connection, member, is⟩ := List.any_eq_true.mp dashboard
    exact ⟨connection, member, of_decide_eq_true is⟩
  · obtain ⟨event, sent, is⟩ := List.any_eq_true.mp chat
    cases event with
    | chat message => exact ⟨message, sent, beq_iff_eq.mp is⟩
    | _ => cases is

theorem survives_iff_commands_in_range_typed : ∃ (deployment : Deployment) (platform : Platform) (rounds : List Round),
    (Process.run platform rounds).server.alert_rules_.length = 1 ∧ ∀ fd call text,
      .handed fd call ∈ (Process.run platform rounds).log → deployment.Typed (.command text) →
        call.line = dumps (send_command text) → CommandInRange platform text := by
  obtain ⟨deployment, platform, rounds, heard, -, -, alive, rules, -⟩ := heard_crossed
  exact ⟨deployment, platform, rounds, rules, (survives_iff_commands_in_range heard).mp alive⟩

theorem events_accounted_for_crossed : ∃ (deployment : Deployment) (platform : Platform) (rounds : List Round),
    (∃ metric, deployment.Collected metric) ∧
      (wire 4 ((Process.run platform rounds).log.flatMap (Activity.entries platform))).countP ServerEvent.isAlert = 1 ∧
      (∃ message, .chat message ∈ wire 4 ((Process.run platform rounds).log.flatMap (Activity.entries platform)) ∧
        message.text = ascii "say \\") ∧
      deployment.Sourced platform (Process.run platform rounds).server ∧
      ∀ event ∈ wire 4 ((Process.run platform rounds).log.flatMap (Activity.entries platform)),
        deployment.Accounts platform event := by
  obtain ⟨deployment, platform, rounds, heard, collected, -, -, -, -, -, alerts, chat⟩ := heard_crossed
  obtain ⟨sourced, accounts⟩ := events_accounted_for heard
  exact ⟨deployment, platform, rounds, collected, alerts, chat, sourced, accounts 4⟩

end Deployment

end SysNetMon
