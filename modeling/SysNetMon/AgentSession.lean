import Mathlib.Data.Finset.Option
import Mathlib.Data.List.ModifyLast
import SysNetMon.Descriptors
import SysNetMon.HostMetrics
import SysNetMon.SendCounts
import SysNetMon.WireLines

/-!
The agent with its connections: `connect_to_server`, the loops of `main` around
it, and the bytes that they put on each connection.
-/

namespace SysNetMon
open Bytes

structure AgentConfig where
  server_host : Bytes
  server_port : Int32
  agent_name : Bytes
  interval_seconds : Int32
  daemonize : Bool

/-- What the calls of `connect_to_server` return: `socket` a descriptor or none,
`inet_addr` and `gethostbyname` an address or none, and each `send` its result. -/
structure Attempt where
  socket : Option ℕ
  inet_addr : Option UInt32
  gethostbyname : Option UInt32
  connected : Bool
  results : ℕ → ℤ

/-- The calls that succeed, or that take effect. -/
inductive SocketCall where
  | socket (fd : ℕ)
  | connect (fd : ℕ) (s_addr : UInt32) (sin_port : UInt16)
  | send (fd : ℕ) (accepted : Bytes)
  | close (fd : ℕ)
  deriving DecidableEq

/-- What it returns, the `socket_fd` that it leaves, and its calls. -/
def connect_to_server (config : AgentConfig) (attempt : Attempt) : Bool × Option ℕ × List SocketCall :=
  match attempt.socket with
  | none => (false, none, [])
  | some fd =>
    match attempt.inet_addr <|> attempt.gethostbyname with
    | none => (false, none, [.socket fd, .close fd])
    | some s_addr =>
      let connect := .connect fd s_addr config.server_port.toUInt32.toUInt16
      if attempt.connected then
        let transmission := send_line attempt.results (register_message config.agent_name)
        if transmission.returned = some true then
          (true, some fd, [.socket fd, connect, .send fd transmission.accepted])
        else (false, some fd, [.socket fd, connect, .send fd transmission.accepted, .close fd])
      else (false, none, [.socket fd, connect, .close fd])

/-- The variables of `main`, with those of its outer loop. A tick is in nanoseconds. -/
structure AgentSession where
  previous_cpu : CpuSample
  previous_net : NetSample
  previous_tick : ℤ
  g_running : Bool := true
  point : LoopPoint := .outer
  socket_fd : Option ℕ := none

/-- What the agent does: its calls, and the metrics that it collects. -/
inductive AgentEvent where
  | call (call : SocketCall)
  | collected (collected : Collected) (metric : MetricSnapshot)

namespace AgentSession

def enter (cpu : CpuReport) (net : NetReport) (tick : ℤ) : AgentSession :=
  { previous_cpu := read_cpu_sample cpu, previous_net := read_net_sample net, previous_tick := tick }

/-- The end of the outer loop's body, after the inner loop. -/
def leave (session : AgentSession) : List AgentEvent := session.socket_fd.toList.map fun fd => .call (.close fd)

def metric (config : AgentConfig) (session : AgentSession) (current_tick : ℤ) (report : HostReport) :
    MetricSnapshot × CpuSample × NetSample :=
  MetricSnapshot.collect config.agent_name session.previous_cpu session.previous_net
    (current_tick - session.previous_tick) report

/-- The body of the inner loop. -/
def collect (config : AgentConfig) (session : AgentSession) (current_tick : ℤ) (report : HostReport)
    (results : ℕ → ℤ) : List AgentEvent × AgentSession :=
  let elapsed := current_tick - session.previous_tick
  let (metric, previous_cpu, previous_net) := session.metric config current_tick report
  let transmission := send_line results (metrics_payload metric)
  let rates := { network_rx_kbps := metric.network_rx_kbps.val, network_tx_kbps := metric.network_tx_kbps.val }
  let collected : AgentEvent :=
    .collected ⟨seconds elapsed, previous_net, metric.cpu_percent.val, rates⟩ metric
  let sent := session.socket_fd.toList.map fun fd => .call (.send fd transmission.accepted)
  let after := { session with previous_cpu, previous_net, previous_tick := current_tick }
  if transmission.returned = some true then (collected :: sent, { after with point := .inner })
  else (collected :: sent ++ session.leave, { after with point := .outer, socket_fd := none })

end AgentSession

/-- The steps of `main` with what they do. A signal can arrive at any point. -/
inductive SessionStep (config : AgentConfig) : AgentSession → List AgentEvent → AgentSession → Prop
  | signal {session} : SessionStep config session [] { session with g_running := false }
  | outer {session} : session.point = .outer →
      SessionStep config session []
        { session with point := if session.g_running then .connecting else .stopped, socket_fd := none }
  | connect {session} (attempt : Attempt) : session.point = .connecting →
      Admissible ((register_message config.agent_name).length + 1) attempt.results →
      SessionStep config session ((connect_to_server config attempt).2.2.map .call)
        { session with
          point := if (connect_to_server config attempt).1 then .inner else .outer
          socket_fd := (connect_to_server config attempt).2.1 }
  | stay {session} : session.point = .inner → session.g_running = true →
      SessionStep config session [] { session with point := .collecting }
  | leave {session} : session.point = .inner → session.g_running = false →
      SessionStep config session session.leave { session with point := .outer }
  | collect {session} (current_tick : ℤ) (report : HostReport) (results : ℕ → ℤ) : session.point = .collecting →
      Admissible ((metrics_payload (session.metric config current_tick report).1).length + 1) results →
      SessionStep config session (session.collect config current_tick report results).1
        (session.collect config current_tick report results).2

/-- The runs of the agent from its first samples. -/
abbrev SessionRun (config : AgentConfig) (cpu : CpuReport) (net : NetReport) (tick : ℤ) :
    AgentSession → List AgentEvent → Prop :=
  LoggedRun (AgentSession.enter cpu net tick) (SessionStep config)

section Refines
variable {config : AgentConfig} {session after : AgentSession} {entries log : List AgentEvent}

/-- The part of the variables that the samples depend on. -/
def AgentSession.toMain (session : AgentSession) : AgentMain where
  previous_cpu := session.previous_cpu
  previous_net := session.previous_net
  previous_tick := seconds session.previous_tick
  g_running := session.g_running
  point := session.point

def AgentEvent.collected? : AgentEvent → Option Collected
  | collected values _ => some values
  | call _ => none

theorem seconds_sub (x y : ℤ) : seconds (x - y) = seconds x - seconds y := by
  rw [seconds, seconds, seconds, Int.cast_sub, sub_div]

/-- Calls collect nothing. -/
theorem collected_of_calls {entries : List AgentEvent} (calls : ∀ entry ∈ entries, entry.collected? = none) :
    entries.filterMap AgentEvent.collected? = [] := List.filterMap_eq_nil_iff.mpr calls

theorem collected_map_call {α : Type} (f : α → SocketCall) (l : List α) :
    (l.map fun a => AgentEvent.call (f a)).filterMap AgentEvent.collected? = [] :=
  collected_of_calls fun entry member => by
    obtain ⟨a, -, rfl⟩ := List.mem_map.mp member
    rfl

theorem AgentSession.collect_refines (config : AgentConfig) (session : AgentSession) (current_tick : ℤ)
    (report : HostReport) (results : ℕ → ℤ) :
    ∃ sent, (session.collect config current_tick report results).1.filterMap AgentEvent.collected? =
        [(session.toMain.collect (seconds current_tick) report.cpu report.net sent).1] ∧
      (session.collect config current_tick report results).2.toMain =
        (session.toMain.collect (seconds current_tick) report.cpu report.net sent).2 := by
  have elapsed : seconds (current_tick - session.previous_tick) =
      seconds current_tick - session.toMain.previous_tick := seconds_sub _ _
  have collects := MetricSnapshot.collect_agrees config.agent_name session.previous_cpu session.previous_net
    (current_tick - session.previous_tick) report
  unfold collect AgentMain.collect
  rw [elapsed] at collects
  dsimp only [toMain] at collects elapsed ⊢
  rw [collects, ← elapsed]
  split
  · refine ⟨true, ?_, rfl⟩
    rw [List.filterMap_cons, collected_map_call]
    rfl
  · refine ⟨false, ?_, rfl⟩
    rw [List.filterMap_append, List.filterMap_cons, collected_map_call, leave, collected_map_call]
    rfl

/-- A step of the agent is a step of its loops, seen without the connections. -/
theorem SessionStep.refines (one : SessionStep config session entries after) :
    AgentStep session.toMain (entries.filterMap AgentEvent.collected?) after.toMain := by
  cases one with
  | signal => exact .signal
  | outer atOuter => exact .outer atOuter
  | connect attempt atConnecting _ =>
    rw [collected_map_call]
    exact .connect _ atConnecting
  | stay atInner running =>
    have step := @AgentStep.inner session.toMain atInner
    have goes : session.toMain.g_running = true := running
    rw [goes, if_pos rfl] at step
    simpa [AgentSession.toMain, running] using step
  | leave atInner stopped =>
    have step := @AgentStep.inner session.toMain atInner
    rw [AgentSession.leave, collected_map_call]
    simpa [AgentSession.toMain, stopped] using step
  | collect current_tick report results atCollecting _ =>
    obtain ⟨sent, same, same'⟩ := session.collect_refines config current_tick report results
    rw [same, same']
    exact .collect _ _ _ sent atCollecting

end Refines

/-- What the agent does to its connections, as far as they see it: the descriptor
held before and after, and what it does meanwhile. -/
inductive Moves (config : AgentConfig) : Option ℕ → List AgentEvent → Option ℕ → Prop
  | quiet {held} : Moves config held [] held
  | failed {fd connects} : (∀ call ∈ connects, ∃ s_addr sin_port, call = SocketCall.connect fd s_addr sin_port) →
      Moves config none ((SocketCall.socket fd :: connects ++ [SocketCall.close fd]).map .call) none
  | unregistered {fd s_addr sin_port accepted} : accepted <+: register_message config.agent_name ++ [newline] →
      Moves config none ([SocketCall.socket fd, .connect fd s_addr sin_port, .send fd accepted, .close fd].map .call) none
  | registered {fd s_addr sin_port} :
      Moves config none ([SocketCall.socket fd, .connect fd s_addr sin_port,
        .send fd (register_message config.agent_name ++ [newline])].map .call) (some fd)
  | left {fd} : Moves config (some fd) [.call (.close fd)] none
  | sent {fd values metric} : metric.host = config.agent_name →
      Moves config (some fd) [.collected values metric, .call (.send fd (metrics_payload metric ++ [newline]))] (some fd)
  | broken {fd values metric accepted} : metric.host = config.agent_name →
      accepted <+: metrics_payload metric ++ [newline] →
      Moves config (some fd) [.collected values metric, .call (.send fd accepted), .call (.close fd)] none

section Moves
variable {config : AgentConfig} {session after : AgentSession} {entries log : List AgentEvent}

def AgentSession.Connected (session : AgentSession) : Prop := session.point = .inner ∨ session.point = .collecting

instance (session : AgentSession) : Decidable session.Connected := inferInstanceAs (Decidable (_ ∨ _))

/-- The descriptor of the connection that the agent is in. -/
def AgentSession.held (session : AgentSession) : Option ℕ := if session.Connected then session.socket_fd else none

/-- Within a connection `socket_fd` is valid. -/
def AgentSession.Valid (session : AgentSession) : Prop := session.Connected → ∃ fd, session.socket_fd = some fd

/-- What a line comes to: all of it was taken, or a part and `send_line` returns false. -/
theorem send_line_cases {results : ℕ → ℤ} {payload : Bytes} (admissible : Admissible (payload.length + 1) results) :
    ((send_line results payload).returned = some true ∧ (send_line results payload).accepted = payload ++ [newline]) ∨
      ((send_line results payload).returned = some false ∧
        (send_line results payload).accepted <+: payload ++ [newline]) := by
  cases send_line_sent admissible with
  | whole accepted returned => exact Or.inl ⟨returned, accepted⟩
  | nothing accepted returned => exact Or.inr ⟨returned, accepted ▸ List.nil_prefix⟩
  | part _ _ accepted returned => exact Or.inr ⟨returned, accepted ▸ List.take_prefix _ _⟩

theorem connect_to_server_moves {attempt : Attempt}
    (admissible : Admissible ((register_message config.agent_name).length + 1) attempt.results) :
    (∃ fd, (connect_to_server config attempt).1 = true ∧ (connect_to_server config attempt).2.1 = some fd ∧
        Moves config none ((connect_to_server config attempt).2.2.map .call) (some fd)) ∨
      ((connect_to_server config attempt).1 = false ∧
        Moves config none ((connect_to_server config attempt).2.2.map .call) none) := by
  unfold connect_to_server
  cases attempt.socket with
  | none => exact Or.inr ⟨rfl, .quiet⟩
  | some fd =>
    dsimp only
    cases attempt.inet_addr <|> attempt.gethostbyname with
    | none => exact Or.inr ⟨rfl, @Moves.failed config fd [] (List.forall_mem_nil _)⟩
    | some s_addr =>
      dsimp only
      cases attempt.connected with
      | false =>
        rw [if_neg Bool.false_ne_true]
        exact Or.inr ⟨rfl, .failed (List.forall_mem_singleton.mpr ⟨_, _, rfl⟩)⟩
      | true =>
        rw [if_pos rfl]
        rcases send_line_cases admissible with ⟨returned, accepted⟩ | ⟨returned, part⟩
        · rw [if_pos returned, accepted]
          exact Or.inl ⟨fd, rfl, rfl, .registered⟩
        · rw [if_neg (by rw [returned]; decide)]
          exact Or.inr ⟨rfl, .unregistered part⟩

theorem AgentSession.held_of_connected {fd : ℕ} (connected : session.Connected) (is : session.socket_fd = some fd) :
    session.held = some fd := by rw [held, if_pos connected, is]

theorem AgentSession.held_of_not_connected (apart : ¬ session.Connected) : session.held = none := if_neg apart

theorem AgentSession.collect_moves {fd : ℕ} (connected : session.Connected) (is : session.socket_fd = some fd)
    {current_tick : ℤ} {report : HostReport} {results : ℕ → ℤ}
    (admissible : Admissible ((metrics_payload (session.metric config current_tick report).1).length + 1) results) :
    Moves config session.held (session.collect config current_tick report results).1
        (session.collect config current_tick report results).2.held ∧
      (session.collect config current_tick report results).2.Valid := by
  have named : (session.metric config current_tick report).1.host = config.agent_name := rfl
  rw [held_of_connected connected is]
  unfold collect
  rw [is]
  dsimp only
  rcases send_line_cases admissible with ⟨returned, accepted⟩ | ⟨returned, part⟩
  · rw [if_pos returned, accepted]
    dsimp only
    refine ⟨?_, fun _ => ⟨fd, rfl⟩⟩
    rw [held_of_connected (Or.inl rfl) rfl]
    exact .sent named
  · rw [if_neg (by rw [returned]; decide), leave, is]
    dsimp only
    refine ⟨?_, fun connected => absurd connected (by simp [Connected])⟩
    rw [held_of_not_connected (by simp [Connected])]
    exact .broken named part

/-- Each step of `main` is such a move, and leaves `socket_fd` valid within a connection. -/
theorem SessionStep.moves (one : SessionStep config session entries after) (valid : session.Valid) :
    Moves config session.held entries after.held ∧ after.Valid := by
  cases one with
  | signal => exact ⟨.quiet, valid⟩
  | outer atOuter =>
    have apart : ¬ session.Connected := by simp [AgentSession.Connected, atOuter]
    rw [AgentSession.held_of_not_connected apart, AgentSession.held]
    rw [ite_self]
    refine ⟨.quiet, fun connected => ?_⟩
    cases running : session.g_running <;> simp [AgentSession.Connected, running] at connected
  | connect attempt atConnecting admissible =>
    have apart : ¬ session.Connected := by simp [AgentSession.Connected, atConnecting]
    rw [AgentSession.held_of_not_connected apart]
    rcases connect_to_server_moves admissible with ⟨fd, returned, is, moves⟩ | ⟨returned, moves⟩
    · rw [returned, is, if_pos rfl]
      refine ⟨?_, fun _ => ⟨fd, rfl⟩⟩
      rw [AgentSession.held_of_connected (Or.inl rfl) rfl]
      exact moves
    · rw [returned, if_neg Bool.false_ne_true]
      refine ⟨?_, fun connected => absurd connected (by simp [AgentSession.Connected])⟩
      rw [AgentSession.held_of_not_connected (by simp [AgentSession.Connected])]
      exact moves
  | stay atInner running =>
    obtain ⟨fd, is⟩ := valid (Or.inl atInner)
    have held : ({ session with point := .collecting } : AgentSession).held = some fd :=
      AgentSession.held_of_connected (Or.inr rfl) is
    rw [AgentSession.held_of_connected (Or.inl atInner) is, held]
    exact ⟨.quiet, fun _ => ⟨fd, is⟩⟩
  | leave atInner stopped =>
    obtain ⟨fd, is⟩ := valid (Or.inl atInner)
    rw [AgentSession.held_of_connected (Or.inl atInner) is, AgentSession.leave, is]
    refine ⟨?_, fun connected => absurd connected (by simp [AgentSession.Connected])⟩
    rw [AgentSession.held_of_not_connected (by simp [AgentSession.Connected])]
    exact .left
  | collect current_tick report results atCollecting admissible =>
    obtain ⟨fd, is⟩ := valid (Or.inr atCollecting)
    exact session.collect_moves (Or.inr atCollecting) is admissible

/-- A run of the agent is a run of moves. -/
theorem SessionRun.moves {cpu : CpuReport} {net : NetReport} {tick : ℤ} (run : SessionRun config cpu net tick session log) :
    LoggedRun none (Moves config) session.held log ∧ session.Valid := by
  refine run.invariant (fun session log => LoggedRun none (Moves config) session.held log ∧ session.Valid)
    ⟨.start, fun connected => absurd connected (by simp [AgentSession.Connected, AgentSession.enter])⟩ ?_
  intro session after log entries _ ih one
  obtain ⟨moves, valid⟩ := one.moves ih.2
  exact ⟨ih.1.next moves, valid⟩

end Moves

/-- What an item of the agent's log is to its descriptors. -/
def AgentEvent.call? : AgentEvent → Option (Descriptors.Call ℕ)
  | call (.socket fd) => some (.opens fd)
  | call (.connect fd _ _) => some (.uses fd)
  | call (.send fd _) => some (.uses fd)
  | call (.close fd) => some (.closes fd)
  | collected _ _ => none

def AgentEvent.metric? : AgentEvent → Option MetricSnapshot
  | collected _ metric => some metric
  | call _ => none

/-- The bytes put on each connection so far, in the order of their `socket` calls. -/
def AgentEvent.extend (streams : List Bytes) : AgentEvent → List Bytes
  | call (.socket _) => streams ++ [[]]
  | call (.send _ accepted) => streams.modifyLast fun stream => stream ++ accepted
  | _ => streams

def connections (log : List AgentEvent) : List Bytes := log.foldl AgentEvent.extend []

/-- The lines of a connection on which these metrics are sent. -/
def agentLines (agent_name : Bytes) (metrics : List MetricSnapshot) : List Bytes :=
  register_message agent_name :: metrics.map metrics_payload

/-- What a connection carries: the register line and then the payloads of these
metrics, all under the agent's name; of the last line the end may be missing. -/
structure Carries (agent_name : Bytes) (metrics : List MetricSnapshot) (stream : Bytes) : Prop where
  named : ∀ metric ∈ metrics, metric.host = agent_name
  lines : stream <+: textOf (agentLines agent_name metrics)
  whole : textOf (agentLines agent_name metrics).dropLast <+: stream

/-- The metrics sent on each connection and its bytes. On the connection that is
held every line has come to its end. -/
inductive Carried (agent_name : Bytes) : Option ℕ → List (List MetricSnapshot) → List Bytes → Prop
  | apart {parts streams} : List.Forall₂ (Carries agent_name) parts streams → Carried agent_name none parts streams
  | within {fd earlier streams last} : List.Forall₂ (Carries agent_name) earlier streams →
      (∀ metric ∈ last, metric.host = agent_name) →
      Carried agent_name (some fd) (earlier ++ [last]) (streams ++ [textOf (agentLines agent_name last)])

section Runs
variable {config : AgentConfig} {held held' : Option ℕ} {entries log : List AgentEvent}

/-- The descriptors of a move are in order. -/
theorem Moves.in_order (moves : Moves config held entries held') :
    Descriptors.InOrder held.toFinset (entries.filterMap AgentEvent.call?) held'.toFinset := by
  cases moves with
  | quiet => exact .nil
  | @failed fd connects all =>
    have uses : ∀ call ∈ (connects.map AgentEvent.call).filterMap AgentEvent.call?, call = .uses fd := by
      intro call member
      obtain ⟨entry, inEntries, is⟩ := List.mem_filterMap.mp member
      obtain ⟨connect, inConnects, rfl⟩ := List.mem_map.mp inEntries
      obtain ⟨s_addr, sin_port, rfl⟩ := all connect inConnects
      exact (Option.some.inj is).symm
    have order := Descriptors.InOrder.bracket (Finset.notMem_empty fd) uses
    rw [List.cons_append, List.map_cons, List.map_append, List.filterMap_cons, List.filterMap_append]
    exact order
  | @unregistered fd =>
    have uses : ∀ call ∈ [Descriptors.Call.uses fd, .uses fd], call = .uses fd := by simp
    exact Descriptors.InOrder.bracket (Finset.notMem_empty fd) uses
  | registered => exact .opens (Finset.notMem_empty _) (.uses (by simp) (.uses (by simp) .nil))
  | @left fd => exact .closes (by simp) (by rw [Option.toFinset_some, Finset.erase_singleton]; exact .nil)
  | sent => exact .uses (by simp) .nil
  | broken =>
    exact .uses (by simp) (.closes (by simp) (by rw [Option.toFinset_some, Finset.erase_singleton]; exact .nil))

theorem textOf_concat (lines : List Bytes) (line : Bytes) :
    textOf (lines ++ [line]) = textOf lines ++ (line ++ [newline]) := by
  simp [textOf]

theorem agentLines_concat (agent_name : Bytes) (metrics : List MetricSnapshot) (metric : MetricSnapshot) :
    agentLines agent_name (metrics ++ [metric]) = agentLines agent_name metrics ++ [metrics_payload metric] := by
  simp [agentLines]

theorem forall₂_concat {α β : Type} {R : α → β → Prop} {as : List α} {bs : List β} (all : List.Forall₂ R as bs) {a : α} {b : β}
    (last : R a b) : List.Forall₂ R (as ++ [a]) (bs ++ [b]) :=
  List.rel_append all (.cons last .nil)

/-- The first lines of a text are its beginning. -/
theorem textOf_prefix {lines all : List Bytes} (first : lines <+: all) : textOf lines <+: textOf all := by
  obtain ⟨rest, rfl⟩ := first
  rw [textOf, textOf, List.flatMap_append]
  exact List.prefix_append _ _

/-- A connection on which every line has come to its end. -/
theorem Carries.of_whole {agent_name : Bytes} {metrics : List MetricSnapshot}
    (named : ∀ metric ∈ metrics, metric.host = agent_name) :
    Carries agent_name metrics (textOf (agentLines agent_name metrics)) :=
  ⟨named, List.prefix_rfl, textOf_prefix (List.dropLast_prefix _)⟩

/-- Calls that send nothing put nothing on a connection. -/
theorem foldl_extend_connects {fd : ℕ} {connects : List SocketCall} (streams : List Bytes)
    (all : ∀ call ∈ connects, ∃ s_addr sin_port, call = SocketCall.connect fd s_addr sin_port) :
    (connects.map AgentEvent.call).foldl AgentEvent.extend streams = streams ∧
      (connects.map AgentEvent.call).filterMap AgentEvent.metric? = [] := by
  induction connects with
  | nil => exact ⟨rfl, rfl⟩
  | cons connect connects ih =>
    rw [List.forall_mem_cons] at all
    obtain ⟨⟨s_addr, sin_port, rfl⟩, later⟩ := all
    exact ih later

/-- One move carries on what was carried. -/
theorem Carried.moves {parts : List (List MetricSnapshot)} {streams : List Bytes}
    (carried : Carried config.agent_name held parts streams) (moves : Moves config held entries held') :
    ∃ parts', parts'.flatten = parts.flatten ++ entries.filterMap AgentEvent.metric? ∧
      Carried config.agent_name held' parts' (entries.foldl AgentEvent.extend streams) := by
  have register : textOf (agentLines config.agent_name []) = register_message config.agent_name ++ [newline] := by
    simp [textOf, agentLines]
  cases moves with
  | quiet => exact ⟨parts, (List.append_nil _).symm, carried⟩
  | @failed fd connects all =>
    cases carried with
    | apart whole =>
      obtain ⟨same, none⟩ := foldl_extend_connects (streams ++ [[]]) all
      refine ⟨parts ++ [[]], ?_, ?_⟩
      · rw [List.cons_append, List.map_cons, List.map_append, List.filterMap_cons, List.filterMap_append, none]
        simp [AgentEvent.metric?]
      · rw [List.cons_append, List.map_cons, List.map_append, List.foldl_cons, List.foldl_append, AgentEvent.extend, same]
        exact .apart (forall₂_concat whole ⟨List.forall_mem_nil _, List.nil_prefix, List.nil_prefix⟩)
  | unregistered part =>
    cases carried with
    | apart whole =>
      refine ⟨parts ++ [[]], by simp [AgentEvent.metric?], ?_⟩
      simp only [List.map_cons, List.map_nil, List.foldl_cons, List.foldl_nil, AgentEvent.extend,
        List.modifyLast_concat, List.nil_append]
      exact .apart (forall₂_concat whole ⟨List.forall_mem_nil _, register ▸ part, List.nil_prefix⟩)
  | registered =>
    cases carried with
    | apart whole =>
      refine ⟨parts ++ [[]], by simp [AgentEvent.metric?], ?_⟩
      simp only [List.map_cons, List.map_nil, List.foldl_cons, List.foldl_nil, AgentEvent.extend,
        List.modifyLast_concat, List.nil_append]
      rw [← register]
      exact .within whole (List.forall_mem_nil _)
  | left =>
    cases carried with
    | within whole named =>
      exact ⟨_, (List.append_nil _).symm, .apart (forall₂_concat whole (.of_whole named))⟩
  | @sent fd values metric name =>
    cases carried with
    | @within _ earlier streams last whole named =>
      refine ⟨earlier ++ [last ++ [metric]], by simp [AgentEvent.metric?], ?_⟩
      simp only [List.foldl_cons, List.foldl_nil, AgentEvent.extend, List.modifyLast_concat]
      rw [← textOf_concat, ← agentLines_concat]
      exact .within whole (List.forall_mem_append.mpr ⟨named, List.forall_mem_singleton.mpr name⟩)
  | @broken fd values metric accepted name part =>
    cases carried with
    | @within _ earlier streams last whole named =>
      refine ⟨earlier ++ [last ++ [metric]], by simp [AgentEvent.metric?], ?_⟩
      simp only [List.foldl_cons, List.foldl_nil, AgentEvent.extend, List.modifyLast_concat]
      refine .apart (forall₂_concat whole ⟨?_, ?_, ?_⟩)
      · exact List.forall_mem_append.mpr ⟨named, List.forall_mem_singleton.mpr name⟩
      · rw [agentLines_concat, textOf_concat]
        exact (List.prefix_append_right_inj _).mpr part
      · rw [agentLines_concat, List.dropLast_concat]
        exact List.prefix_append _ _

/-- Along moves the descriptors are in order. -/
theorem moves_in_order (run : LoggedRun none (Moves config) held log) :
    Descriptors.InOrder ∅ (log.filterMap AgentEvent.call?) held.toFinset := by
  refine run.invariant (fun held log => Descriptors.InOrder ∅ (log.filterMap AgentEvent.call?) held.toFinset) .nil ?_
  intro held held' log entries _ ih one
  rw [List.filterMap_append]
  exact ih.append one.in_order

/-- Along moves the connections carry the metrics that are collected. -/
theorem moves_carry (run : LoggedRun none (Moves config) held log) :
    ∃ parts, parts.flatten = log.filterMap AgentEvent.metric? ∧
      Carried config.agent_name held parts (connections log) := by
  refine run.invariant (fun held log => ∃ parts, parts.flatten = log.filterMap AgentEvent.metric? ∧
    Carried config.agent_name held parts (connections log)) ⟨[], rfl, .apart .nil⟩ ?_
  rintro held held' log entries - ⟨parts, all, carried⟩ one
  obtain ⟨parts', all', carried'⟩ := carried.moves one
  refine ⟨parts', ?_, ?_⟩
  · rw [all', all, List.filterMap_append]
  · rw [connections, List.foldl_append]
    exact carried'

theorem Carried.each {agent_name : Bytes} {parts : List (List MetricSnapshot)} {streams : List Bytes}
    (carried : Carried agent_name held parts streams) : List.Forall₂ (Carries agent_name) parts streams := by
  cases carried with
  | apart whole => exact whole
  | within whole named => exact forall₂_concat whole (.of_whole named)

theorem wireLine_agentLines {agent_name : Bytes} {metrics : List MetricSnapshot} :
    ∀ line ∈ agentLines agent_name metrics, WireLine line := by
  intro line member
  rcases List.mem_cons.mp member with rfl | payload
  · exact wireLine_register agent_name
  · obtain ⟨metric, -, rfl⟩ := List.mem_map.mp payload
    exact wireLine_payload metric

/-- What the server takes off such a connection. -/
theorem Carries.linesOf {agent_name : Bytes} {metrics : List MetricSnapshot} {stream : Bytes}
    (carries : Carries agent_name metrics stream) :
    (agentLines agent_name metrics).dropLast <+: linesOf stream ∧ linesOf stream <+: agentLines agent_name metrics := by
  refine ⟨?_, linesOf_of_prefix_textOf wireLine_agentLines carries.lines⟩
  have first := linesOf_initial carries.whole
  rwa [linesOf_textOf fun line member => wireLine_agentLines line (List.mem_of_mem_dropLast member)] at first

end Runs

section Results
variable {config : AgentConfig} {cpu : CpuReport} {net : NetReport} {tick : ℤ} {session : AgentSession}
  {log : List AgentEvent}

/-- A run of the agent is a run of its loops, seen without the connections. -/
theorem SessionRun.refines (run : SessionRun config cpu net tick session log) :
    AgentRun cpu net (seconds tick) session.toMain (log.filterMap AgentEvent.collected?) := by
  refine run.invariant (fun session log =>
    AgentRun cpu net (seconds tick) session.toMain (log.filterMap AgentEvent.collected?)) .start ?_
  intro session after log entries _ ih one
  rw [List.filterMap_append]
  exact ih.next one.refines

/-- Whatever fails and whenever signals arrive, the agent opens a socket only
while it has none, uses and closes only the one it has open, and outside of a
connection has closed each as often as it was opened. -/
theorem agent_descriptors_in_order (run : SessionRun config cpu net tick session log) :
    Descriptors.InOrder ∅ (log.filterMap AgentEvent.call?) session.held.toFinset ∧
      (¬ session.Connected → ∀ fd, (log.filterMap AgentEvent.call?).count (.opens fd) =
        (log.filterMap AgentEvent.call?).count (.closes fd)) := by
  have order := moves_in_order run.moves.1
  refine ⟨order, fun apart fd => ?_⟩
  have balance := order.balance fd
  rwa [AgentSession.held_of_not_connected apart, Option.toFinset_none, if_neg (Finset.notMem_empty fd)] at balance

theorem SessionRun.first_attempt (config : AgentConfig) (cpu : CpuReport) (attempt : Attempt)
    (admissible : Admissible ((register_message config.agent_name).length + 1) attempt.results) :
    SessionRun config cpu .failed 0
      { AgentSession.enter cpu .failed 0 with
        point := if (connect_to_server config attempt).1 then .inner else .outer
        socket_fd := (connect_to_server config attempt).2.1 }
      ((connect_to_server config attempt).2.2.map .call) := by
  have connecting : SessionRun config cpu .failed 0 _ _ := LoggedRun.start.next (.outer rfl)
  have tried := connecting.next (.connect attempt rfl admissible)
  rwa [List.append_nil, List.nil_append] at tried

theorem admissible_whole {size : ℕ} (small : size < 2 ^ 31) : Admissible size fun _ => size := by
  intro i positive below
  cases i with
  | zero =>
    rw [Finset.range_zero, Finset.sum_empty, sub_zero]
    exact Or.inr ⟨Int.natCast_nonneg size, (toInt_eq_iff.mpr small).ge⟩
  | succ i =>
    rw [Finset.sum_const, Finset.card_range, nsmul_eq_mul] at below
    have more : size ≤ (i + 1) * size := Nat.le_mul_of_pos_left size i.succ_pos
    exact absurd below (not_lt.mpr (by exact_mod_cast more))

theorem SessionRun.registered : ∃ session log, SessionRun
    ⟨ascii "127.0.0.1", 9090, ascii "web", 5, false⟩ .failed .failed 0 session log ∧ session.held = some 3 ∧
      connections log = [register_message (ascii "web") ++ [newline]] := by
  let config : AgentConfig := ⟨ascii "127.0.0.1", 9090, ascii "web", 5, false⟩
  let size := (register_message config.agent_name).length + 1
  have admissible : Admissible size fun _ => size := admissible_whole (by decide +kernel)
  exact ⟨_, _, SessionRun.first_attempt config .failed ⟨some 3, some 16777343, none, true, fun _ => size⟩ admissible,
    by decide +kernel, by decide +kernel⟩

/-- An agent that is accepted at its first attempt. -/
theorem agent_descriptors_in_order_registered : ∃ (session : AgentSession) (log : List AgentEvent), session.held = some 3 ∧
    connections log ≠ [] ∧ Descriptors.InOrder ∅ (log.filterMap AgentEvent.call?) session.held.toFinset := by
  obtain ⟨session, log, run, held, streams⟩ := SessionRun.registered
  exact ⟨session, log, held, streams ▸ List.cons_ne_nil _ _, (agent_descriptors_in_order run).1⟩

/-- One interval in the inner loop. -/
theorem SessionRun.interval (run : SessionRun config cpu net tick session log) (inner : session.point = .inner)
    (running : session.g_running = true) (current_tick : ℤ) (report : HostReport) (results : ℕ → ℤ)
    (admissible : Admissible ((metrics_payload (session.metric config current_tick report).1).length + 1) results) :
    SessionRun config cpu net tick (session.collect config current_tick report results).2
      (log ++ (session.collect config current_tick report results).1) := by
  have stayed := run.next (.stay inner running)
  rw [List.append_nil] at stayed
  exact stayed.next (.collect current_tick report results rfl admissible)

theorem metric_map_call {α : Type} (f : α → SocketCall) (l : List α) :
    (l.map fun a => AgentEvent.call (f a)).filterMap AgentEvent.metric? = [] :=
  List.filterMap_eq_nil_iff.mpr fun entry member => by
    obtain ⟨a, -, rfl⟩ := List.mem_map.mp member
    rfl

/-- An interval collects one metric. -/
theorem AgentSession.collect_metric (config : AgentConfig) (session : AgentSession) (current_tick : ℤ)
    (report : HostReport) (results : ℕ → ℤ) :
    (session.collect config current_tick report results).1.filterMap AgentEvent.metric? =
      [(session.metric config current_tick report).1] := by
  unfold collect
  dsimp only
  split
  · rw [List.filterMap_cons, metric_map_call]
    rfl
  · rw [List.filterMap_append, List.filterMap_cons, metric_map_call, leave, metric_map_call]
    rfl

/-- The register line of an agent, a metric and the first byte of another one. -/
def reportedStream : Bytes :=
  textOf [ascii "\x7b\"type\":\"register\",\"role\":\"agent\",\"host\":\"web\"\x7d",
    ascii "\x7b\"type\":\"metrics\",\"host\":\"web\",\"timestamp\":\"2024-01-02T03:04:05Z\",\"cpu_percent\":90.00," ++
      ascii "\"memory_percent\":75.00,\"disk_percent\":50.00,\"network_rx_kbps\":0.00,\"network_tx_kbps\":0.00," ++
      ascii "\"memory_used_mb\":6,\"memory_total_mb\":8,\"disk_used_mb\":4,\"disk_total_mb\":8\x7d"] ++ ascii "\x7b"

/-- Two intervals on one connection: the payload of the first metric is sent
whole, of that of the second one byte is, and the connection is given up. -/
theorem SessionRun.reported : ∃ session log first second, SessionRun
    ⟨ascii "127.0.0.1", 9090, ascii "web", 5, false⟩ (.proc_stat 10 0 0 10 0 0 0 0) .failed 0 session log ∧
      log.filterMap AgentEvent.metric? = [first, second] ∧ connections log = [reportedStream] ∧
      reportedStream = textOf (agentLines (ascii "web") [first]) ++ (metrics_payload second).take 1 := by
  let config : AgentConfig := ⟨ascii "127.0.0.1", 9090, ascii "web", 5, false⟩
  let report : HostReport :=
    ⟨⟨2024, 1, 2, 3, 4, 5⟩, .proc_stat 70 20 10 20 0 0 0 0, .GlobalMemoryStatusEx 8388608 2097152,
      .statvfs 2048 1024 4096, .failed⟩
  let size := (register_message config.agent_name).length + 1
  let attempt : Attempt := ⟨some 3, some 16777343, none, true, fun _ => size⟩
  let start : AgentSession :=
    { AgentSession.enter (.proc_stat 10 0 0 10 0 0 0 0) .failed 0 with point := .inner, socket_fd := some 3 }
  have connected : (connect_to_server config attempt).1 = true ∧ (connect_to_server config attempt).2.1 = some 3 := by
    decide +kernel
  have registered := SessionRun.first_attempt config (.proc_stat 10 0 0 10 0 0 0 0) attempt
    (admissible_whole (by decide +kernel))
  rw [connected.1, connected.2, if_pos rfl] at registered
  let first := (start.metric config 5000000000 report).1
  let payload := (metrics_payload first).length + 1
  have started : SessionRun config _ .failed 0 start _ := registered
  have reported := started.interval rfl rfl 5000000000 report (fun _ => payload) (admissible_whole (by decide +kernel))
  let next := (start.collect config 5000000000 report fun _ => payload).2
  let second := (next.metric config 10000000000 report).1
  have broken := reported.interval (by decide +kernel) (by decide +kernel) 10000000000 report
    (fun i => if i = 0 then 1 else -1) (admissible_of_small (by decide +kernel) fun i => by split <;> simp)
  refine ⟨_, _, first, second, broken, ?_, by decide +kernel, by decide +kernel⟩
  rw [List.filterMap_append, List.filterMap_append, AgentSession.collect_metric, AgentSession.collect_metric,
    metric_map_call]
  rfl

/-- The metrics that an agent collects are spread over its connections in order,
each on one: a connection carries the register line and the payloads of its
share, of the last line perhaps only a part, and the server takes off it these
lines, perhaps without the last, each as it was written. The connection that the
agent is in has carried them all. -/
theorem agent_connections_carry_metrics (run : SessionRun config cpu net tick session log) :
    ∃ parts, parts.flatten = log.filterMap AgentEvent.metric? ∧
      List.Forall₂ (Carries config.agent_name) parts (connections log) ∧
      List.Forall₂ (fun metrics stream => (agentLines config.agent_name metrics).dropLast <+: linesOf stream ∧
        linesOf stream <+: agentLines config.agent_name metrics) parts (connections log) ∧
      ∀ fd, session.held = some fd → ∃ last stream, parts.getLast? = some last ∧
        (connections log).getLast? = some stream ∧ stream = textOf (agentLines config.agent_name last) ∧
        linesOf stream = agentLines config.agent_name last := by
  obtain ⟨parts, all, carried⟩ := moves_carry run.moves.1
  refine ⟨parts, all, carried.each, carried.each.imp fun _ _ carries => carries.linesOf, fun fd held => ?_⟩
  rw [held] at carried
  generalize connections log = streams at carried ⊢
  cases carried with
  | @within _ earlier streams last whole named =>
    exact ⟨last, _, List.getLast?_concat, List.getLast?_concat, rfl, linesOf_textOf wireLine_agentLines⟩

theorem agent_connections_carry_metrics_reported : ∃ log parts first second,
    log.filterMap AgentEvent.metric? = [first, second] ∧ parts.flatten = [first, second] ∧
      connections log = [textOf (agentLines (ascii "web") [first]) ++ (metrics_payload second).take 1] ∧
      List.Forall₂ (Carries (ascii "web")) parts (connections log) := by
  obtain ⟨session, log, first, second, run, metrics, streams, shape⟩ := SessionRun.reported
  obtain ⟨parts, all, carries, -⟩ := agent_connections_carry_metrics run
  exact ⟨log, parts, first, second, metrics, all.trans metrics, by rw [streams, shape], carries⟩

end Results

end SysNetMon
