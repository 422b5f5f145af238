import SysNetMon.AlertEdges
import SysNetMon.Wire

/-!
Who changes what: the parts of the server that a line can change, by the
connection it comes from.
-/

namespace SysNetMon
open Bytes RisingEdge

/-- The role that a line names in a register, if it is one that is recognised. -/
def namedRole (line : Bytes) : Option ClientRole :=
  if lineType line = ascii "register" then
    let role := lower_copy ((json_get_string line (ascii "role")).getD [])
    if role = ascii "agent" then some .Agent else if role = ascii "dashboard" then some .Dashboard else none
  else none

def namedStep (fd : ℕ) (named : Option ClientRole) : Entry → Option ClientRole
  | .accepted other => if other = fd then none else named
  | .handled h =>
    if h.before.clients_[h.index]?.map ClientConnection.fd = some fd then (namedRole h.line).or named else named
  | .closed _ => named

/-- The role named by the last recognised register on the connection that `fd`
names now, since it was accepted. -/
def lastNamed (fd : ℕ) (log : List Entry) : Option ClientRole := log.foldl (namedStep fd) none

/-- The host of a metrics line. -/
def lineHost (client : ClientConnection) (line : Bytes) : Bytes :=
  (json_get_string line (ascii "host")).getD client.declared_host

/-- What a line of `client` may change of the server. -/
structure Owned (platform : Platform) (log : List Entry) (server : MonitorServer) (index : ℕ)
    (client : ClientConnection) (line : Bytes) (after : MonitorServer) : Prop where
  metrics : after.latest_metrics_ ≠ server.latest_metrics_ ∨ after.active_alerts_ ≠ server.active_alerts_ →
    lineType line = ascii "metrics" ∧ lastNamed client.fd log = some .Agent
  hosts : ∀ host, host ≠ lineHost client line →
    after.latest_metrics_.lookup host = server.latest_metrics_.lookup host ∧
      ∀ rule ∈ server.alert_rules_, after.active_alerts_.lookup (dedupe_key host rule.raw_command) =
        server.active_alerts_.lookup (dedupe_key host rule.raw_command)
  keys : ∀ key, (∀ rule ∈ server.alert_rules_, key ≠ dedupe_key (lineHost client line) rule.raw_command) →
    after.active_alerts_.lookup key = server.active_alerts_.lookup key
  rules : after.alert_rules_ = server.alert_rules_ ∨ lineType line = ascii "command" ∧
    ∃ rule, parse_alert_command platform (lineText line) = .ok (some rule) ∧
      after.alert_rules_ = server.alert_rules_ ++ [rule]
  clients : after.clients_ ≠ server.clients_ → lineType line = ascii "register"
  others : ∀ i, i ≠ index → after.clients_[i]? = server.clients_[i]?
  connections : after.connections = server.connections
  rest : lineType line ≠ ascii "register" →
    ¬ (lineType line = ascii "metrics" ∧ lastNamed client.fd log = some .Agent) →
    ¬ (lineType line = ascii "command" ∧ ∃ rule, parse_alert_command platform (lineText line) = .ok (some rule)) →
    after = server

theorem Owned.refl {platform : Platform} {log : List Entry} {server : MonitorServer} {index : ℕ}
    {client : ClientConnection} {line : Bytes} : Owned platform log server index client line server where
  metrics changed := by simp at changed
  hosts _ _ := ⟨rfl, fun _ _ => rfl⟩
  keys _ _ := rfl
  rules := Or.inl rfl
  clients changed := absurd rfl changed
  others _ _ := rfl
  connections := rfl
  rest _ _ _ := rfl

section Line
variable {platform : Platform} {server after : MonitorServer} {clock : ℕ → Tm} {index : ℕ}
  {client : ClientConnection} {line : Bytes} {outputs : List Output}

/-- Only a register changes what the connections are registered as. -/
theorem MonitorServer.handle_line_clients (atIndex : server.clients_[index]? = some client)
    (handled : server.handle_line platform clock index line = .ok (after, outputs)) :
    (lineType line = ascii "register" ∧ (after, outputs) = server.register clock index client line) ∨
      lineType line ≠ ascii "register" ∧ after.clients_ = server.clients_ := by
  by_cases is : lineType line = ascii "register"
  · refine Or.inl ⟨is, ?_⟩
    rw [lineType] at is
    simp only [handle_line, atIndex, is, if_true, Except.ok.injEq] at handled
    exact handled.symm
  · refine Or.inr ⟨is, ?_⟩
    obtain ⟨other, -, handling⟩ := handle_line_cases handled
    cases handling with
    | register is' => exact absurd is' is
    | _ => rfl

theorem registeredRole_eq (is : lineType line = ascii "register") (named : Option ClientRole) :
    MonitorServer.registeredRole (lower_copy ((json_get_string line (ascii "role")).getD [])) (named.getD .Unknown) =
      ((namedRole line).or named).getD .Unknown := by
  simp only [MonitorServer.registeredRole, namedRole, if_pos is]
  split
  · rfl
  · split <;> rfl

end Line

section Run
variable {platform : Platform} {server : MonitorServer} {log : List Entry}

theorem lastNamed_append (fd : ℕ) (log entries : List Entry) :
    lastNamed fd (log ++ entries) = entries.foldl (namedStep fd) (lastNamed fd log) :=
  List.foldl_append

/-- Along a run, a connection is registered as what its last recognised register named. -/
theorem ServerRun.role_lastNamed (run : ServerRun platform server log) :
    ∀ connection ∈ server.clients_, connection.role = (lastNamed connection.fd log).getD .Unknown := by
  refine run.invariant (fun server log => ∀ connection ∈ server.clients_,
    connection.role = (lastNamed connection.fd log).getD .Unknown)
    (fun connection member => absurd member List.not_mem_nil) ?_
  intro server after log entries previous ih one connection member
  rw [lastNamed_append]
  cases one with
  | @accept fd peer fresh =>
    rcases List.mem_append.mp member with old | new
    · simp only [List.foldl_cons, List.foldl_nil, namedStep, if_neg (MonitorServer.ne_of_fresh fresh old)]
      exact ih connection old
    · rw [List.mem_singleton.mp new]
      simp [namedStep]
  | @buffer index pending =>
    rcases MonitorServer.mem_modifyClient member with ⟨client, atClient, rfl⟩ | ⟨i, -, atI⟩
    · exact ih client (List.mem_of_getElem? atClient)
    · exact ih connection (List.mem_of_getElem? atI)
  | @handle _ clock index line outputs handled =>
    obtain ⟨client, atIndex, -⟩ := MonitorServer.handle_line_cases handled
    simp only [List.foldl_cons, List.foldl_nil, namedStep, atIndex, Option.map_some, Option.some.injEq]
    rcases MonitorServer.handle_line_clients atIndex handled with ⟨is, registered⟩ | ⟨isNot, clients⟩
    · have afterEq : after = (server.register clock index client line).1 := congrArg Prod.fst registered
      rw [afterEq] at member
      rcases MonitorServer.mem_modifyClient member with ⟨other, atOther, rfl⟩ | ⟨i, elsewhere, atI⟩
      · rw [atIndex] at atOther
        cases atOther
        rw [if_pos rfl, ← registeredRole_eq is, ← ih client (List.mem_of_getElem? atIndex)]
      · rw [if_neg (MonitorServer.fd_ne (ServerRun.fds_nodup previous) atIndex atI (Ne.symm elsewhere))]
        exact ih connection (List.mem_of_getElem? atI)
    · have unnamed : namedRole line = none := if_neg isNot
      rw [clients] at member
      rw [unnamed, Option.none_or, ite_self]
      exact ih connection member
  | disconnect _ => exact ih connection (List.mem_of_mem_eraseIdx member)

/-- An agent is a connection whose last recognised register named that role. -/
theorem ServerRun.agent_iff (run : ServerRun platform server log) {connection : ClientConnection}
    (member : connection ∈ server.clients_) :
    connection.role = .Agent ↔ lastNamed connection.fd log = some .Agent := by
  rw [run.role_lastNamed connection member]
  cases lastNamed connection.fd log <;> simp

/-- The rule list only grows, from any state on. -/
theorem rules_grow {later : MonitorServer} (run : LoggedRun server (ServerStep platform) later log) :
    server.alert_rules_ <+: later.alert_rules_ := by
  refine run.state_invariant (fun later => server.alert_rules_ <+: later.alert_rules_) (List.prefix_refl _) ?_
  intro before after entries grown one
  cases one with
  | handle handled =>
    obtain ⟨client, -, handling⟩ := MonitorServer.handle_line_cases handled
    cases handling with
    | addRule _ _ => exact grown.trans (List.prefix_append _ _)
    | _ => exact grown
  | _ => exact grown

/-- A stored metric changes the entry of its host and the keys of its host and
the rules; no key of another host is one of these. -/
theorem lookup_store {clock : ℕ → Tm} {metric : MetricSnapshot}
    (accepted : ∀ rule ∈ server.alert_rules_, Accepted platform rule) :
    (∀ host, host ≠ metric.host →
      (server.store clock metric).1.latest_metrics_.lookup host = server.latest_metrics_.lookup host ∧
        ∀ rule ∈ server.alert_rules_,
          (server.store clock metric).1.active_alerts_.lookup (dedupe_key host rule.raw_command) =
            server.active_alerts_.lookup (dedupe_key host rule.raw_command)) ∧
      ∀ key, (∀ rule ∈ server.alert_rules_, key ≠ dedupe_key metric.host rule.raw_command) →
        (server.store clock metric).1.active_alerts_.lookup key = server.active_alerts_.lookup key := by
  have unread (key : Bytes) (absent : ∀ rule ∈ server.alert_rules_, key ≠ dedupe_key metric.host rule.raw_command) :
      (server.store clock metric).1.active_alerts_.lookup key = server.active_alerts_.lookup key := by
    rw [MonitorServer.store, (evaluate_rules_sweep metric clock _ _).1]
    refine lookup_sweep_of_not_mem fun read => ?_
    obtain ⟨reading, inReadings, rfl⟩ := List.mem_map.mp read
    obtain ⟨rule, inRules, rfl⟩ := List.mem_map.mp inReadings
    exact absent rule inRules rfl
  refine ⟨fun host other => ⟨AList.lookup_insert_ne other, fun rule inRules => unread _ fun rule' inRules' same => ?_⟩,
    unread⟩
  exact other (dedupe_key_inj (accepted rule inRules).bar_not_mem (accepted rule' inRules').bar_not_mem same).1

variable {after : MonitorServer} {clock : ℕ → Tm} {index : ℕ} {line : Bytes} {outputs : List Output}

/-- In every reachable state, a line changes only what its connection owns: the
metrics and the alert map in the entries of the line's host, for a metrics line
of a connection whose last recognised register named the agent role; the rules
by the one that an accepted command adds at the end; the roles and declared
hosts for the registering connection. From any state on, the rule list of that
state stays an initial part of the list. -/
theorem line_changes_only_its_own (run : ServerRun platform server log)
    (handled : server.handle_line platform clock index line = .ok (after, outputs)) :
    (∃ client, server.clients_[index]? = some client ∧ Owned platform log server index client line after) ∧
      ∀ later log', LoggedRun server (ServerStep platform) later log' →
        server.alert_rules_ <+: later.alert_rules_ := by
  refine ⟨?_, fun later log' onward => rules_grow onward⟩
  obtain ⟨client, atIndex, handling⟩ := MonitorServer.handle_line_cases handled
  refine ⟨client, atIndex, ?_⟩
  have agent := run.agent_iff (List.mem_of_getElem? atIndex)
  cases handling with
  | register is =>
    exact {
      metrics := fun changed => by simp [MonitorServer.register, MonitorServer.modifyClient] at changed
      hosts := fun _ _ => ⟨rfl, fun _ _ => rfl⟩
      keys := fun _ _ => rfl
      rules := Or.inl rfl
      clients := fun _ => is
      others := fun i elsewhere => List.getElem?_modify_ne _ _ (Ne.symm elsewhere)
      connections := server.map_modifyClient index fun _ => rfl
      rest := fun isNot => absurd is isNot }
  | @store metric is role read =>
    have host : lineHost client line = metric.host := (read_metric_strings read).1.symm
    obtain ⟨hosts, keys⟩ := @lookup_store platform server (fun i => clock (i + 1)) metric (ServerRun.rules_accepted run)
    exact {
      metrics := fun _ => ⟨is, agent.mp role⟩
      hosts := host ▸ hosts
      keys := host ▸ keys
      rules := Or.inl rfl
      clients := fun changed => absurd rfl changed
      others := fun _ _ => rfl
      connections := rfl
      rest := fun _ notMetrics => absurd ⟨is, agent.mp role⟩ notMetrics }
  | @addRule rule is parsed =>
    exact {
      metrics := fun changed => by simp at changed
      hosts := fun _ _ => ⟨rfl, fun _ _ => rfl⟩
      keys := fun _ _ => rfl
      rules := Or.inr ⟨is, rule, parsed, rfl⟩
      clients := fun changed => absurd rfl changed
      others := fun _ _ => rfl
      connections := rfl
      rest := fun _ _ notRule => absurd ⟨is, rule, parsed⟩ notRule }
  | _ => exact .refl

end Run

/-- A metrics line of an agent that registered as a dashboard before. -/
theorem line_changes_only_its_own_metrics :
    ∃ platform log, ∃ server after : MonitorServer, ∃ line, after.latest_metrics_ ≠ server.latest_metrics_ ∧
      (∃ client, server.clients_[0]? = some client ∧ Owned platform log server 0 client line after) ∧
        ∀ later log', LoggedRun server (ServerStep platform) later log' →
          server.alert_rules_ <+: later.alert_rules_ := by
  let platform : Platform := ⟨fun _ => false⟩
  let clock : ℕ → Tm := fun _ => ⟨2024, 1, 2, 3, 4, 5⟩
  let line := ascii "\x7b\"type\":\"metrics\",\"host\":\"a\",\"cpu_percent\":90\x7d"
  let requests : List Request :=
    [.accept 4 ⟨(127, 0, 0, 1), 50000⟩,
     .line clock 0 (ascii "\x7b\"type\":\"register\",\"role\":\"dashboard\"\x7d"),
     .line clock 0 (ascii "\x7b\"type\":\"command\",\"text\":\"/alert CPU>80%\"\x7d"),
     .line clock 0 (ascii "\x7b\"type\":\"register\",\"role\":\"Agent\"\x7d")]
  have served : MonitorServer.servesTo platform requests (fun server _ =>
      server.latest_metrics_.keys.isEmpty &&
        ((server.handle_line platform clock 0 line).toOption.any fun handled =>
          !handled.1.latest_metrics_.keys.isEmpty)) = true := by decide +kernel
  obtain ⟨server, log, run, tested⟩ := MonitorServer.run_of_servesTo served
  rw [Bool.and_eq_true] at tested
  obtain ⟨empty, stored⟩ := tested
  cases handled : server.handle_line platform clock 0 line with
  | error abort =>
    rw [handled] at stored
    cases stored
  | ok result =>
    rw [handled] at stored
    refine ⟨platform, log, server, result.1, line, fun same => ?_, line_changes_only_its_own run handled⟩
    rw [Except.toOption, Option.any_some, same, empty] at stored
    cases stored

end SysNetMon
