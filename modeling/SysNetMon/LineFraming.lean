import SysNetMon.NumeralRange
import SysNetMon.Process
import SysNetMon.Wire

/-!
The lines that `read_client` hands on, however the bytes of the connections are
cut and interleaved.
-/

namespace SysNetMon
open Bytes Framing

/-- The newline-terminated segments of a stream, trimmed, without the blank ones. -/
def linesOf (s : Bytes) : List Bytes := ((segments newline s).map trim).filter fun line => line ≠ []

/-- What follows the last newline of a stream. -/
def unread (s : Bytes) : Bytes := unfinished newline s

def streamStep (fd : ℕ) (s : Bytes) : Activity → Bytes
  | .accepted other => if other = fd then [] else s
  | .received other chunk => if other = fd then s ++ chunk else s
  | .handed _ _ => s
  | .closed _ => s

/-- The bytes received on the connection that `fd` names, since it was accepted. -/
def stream (fd : ℕ) (log : List Activity) : Bytes := log.foldl (streamStep fd) []

def handedStep (fd : ℕ) (lines : List Bytes) : Activity → List Bytes
  | .accepted other => if other = fd then [] else lines
  | .received _ _ => lines
  | .handed other call => if other = fd then lines ++ [call.line] else lines
  | .closed _ => lines

/-- The lines of that connection that `handle_line` was called with. -/
def handed (fd : ℕ) (log : List Activity) : List Bytes := log.foldl (handedStep fd) []

def Activity.fd : Activity → ℕ
  | accepted fd => fd
  | received fd _ => fd
  | handed fd _ => fd
  | closed fd => fd

theorem stream_append (fd : ℕ) (log : List Activity) (a : Activity) :
    stream fd (log ++ [a]) = streamStep fd (stream fd log) a := List.foldl_append

theorem handed_append (fd : ℕ) (log : List Activity) (a : Activity) :
    handed fd (log ++ [a]) = handedStep fd (handed fd log) a := List.foldl_append

/-- What happens on one connection is nothing to the others. -/
theorem untouched {fd : ℕ} {a : Activity} (other : a.fd ≠ fd) (log : List Activity) :
    stream fd (log ++ [a]) = stream fd log ∧ handed fd (log ++ [a]) = handed fd log := by
  rw [stream_append, handed_append]
  cases a <;> simp_all [Activity.fd, streamStep, handedStep]

theorem linesOf_of_not_mem {s : Bytes} (none : newline ∉ s) : linesOf s = [] := by
  rw [linesOf, segments_of_not_mem none]
  rfl

theorem linesOf_cut {segment : Bytes} (absent : newline ∉ segment) (rest : Bytes) :
    linesOf (segment ++ newline :: rest) =
      (if trim segment = [] then [] else [trim segment]) ++ linesOf rest := by
  rw [linesOf, segments_cut absent, List.map_cons, List.filter_cons]
  by_cases blank : trim segment = [] <;> simp [blank, linesOf]

theorem linesOf_append (s t : Bytes) : linesOf (s ++ t) = linesOf s ++ linesOf (unread s ++ t) := by
  rw [linesOf, segments_append, List.map_append, List.filter_append]
  rfl

/-- `buffer` holds what is left of the stream of `fd` after the lines handed on so far. -/
structure Tracks (log : List Activity) (fd : ℕ) (buffer : Bytes) : Prop where
  lines : linesOf (stream fd log) = handed fd log ++ linesOf buffer
  rest : unread (stream fd log) = unread buffer

section Tracks
variable {log : List Activity} {fd : ℕ} {buffer : Bytes}

theorem Tracks.untouched (tracks : Tracks log fd buffer) {a : Activity} (other : a.fd ≠ fd) :
    Tracks (log ++ [a]) fd buffer := by
  obtain ⟨sameStream, sameHanded⟩ := SysNetMon.untouched other log
  exact ⟨by rw [sameStream, sameHanded, tracks.lines], by rw [sameStream, tracks.rest]⟩

theorem tracks_accepted (log : List Activity) (fd : ℕ) : Tracks (log ++ [.accepted fd]) fd [] := by
  have fresh : stream fd (log ++ [.accepted fd]) = [] ∧ handed fd (log ++ [.accepted fd]) = [] := by
    rw [stream_append, handed_append]
    exact ⟨if_pos rfl, if_pos rfl⟩
  exact ⟨by rw [fresh.1, fresh.2, List.nil_append], by rw [fresh.1]⟩

/-- A chunk goes to the end of the stream and to the end of the buffer. -/
theorem Tracks.received (tracks : Tracks log fd buffer) (chunk : Bytes) :
    Tracks (log ++ [.received fd chunk]) fd (buffer ++ chunk) := by
  have longer : stream fd (log ++ [.received fd chunk]) = stream fd log ++ chunk := by
    rw [stream_append]
    exact if_pos rfl
  have same : handed fd (log ++ [.received fd chunk]) = handed fd log := handed_append fd log _
  constructor
  · rw [longer, same, linesOf_append, tracks.rest, tracks.lines, linesOf_append buffer, List.append_assoc]
  · rw [longer, unread, unfinished_append, unread, unfinished_append buffer]
    exact congrArg (fun rest => unfinished newline (rest ++ chunk)) tracks.rest

theorem Tracks.skip {segment rest : Bytes} (tracks : Tracks log fd (segment ++ newline :: rest))
    (absent : newline ∉ segment) (blank : trim segment = []) : Tracks log fd rest := by
  have lines := tracks.lines
  rw [linesOf_cut absent, if_pos blank, List.nil_append] at lines
  exact ⟨lines, tracks.rest.trans (unfinished_cut absent rest)⟩

theorem Tracks.hand {segment rest : Bytes} (tracks : Tracks log fd (segment ++ newline :: rest))
    (absent : newline ∉ segment) (solid : trim segment ≠ []) {call : Call} (line : call.line = trim segment) :
    Tracks (log ++ [.handed fd call]) fd rest := by
  have same : stream fd (log ++ [.handed fd call]) = stream fd log := stream_append fd log _
  have longer : handed fd (log ++ [.handed fd call]) = handed fd log ++ [trim segment] := by
    rw [handed_append, ← line]
    exact if_pos rfl
  have lines := tracks.lines
  rw [linesOf_cut absent, if_neg solid, ← List.append_assoc] at lines
  exact ⟨by rw [same, longer, lines], by rw [same]; exact tracks.rest.trans (unfinished_cut absent rest)⟩

/-- Once no newline is left, every line was handed on. -/
theorem Tracks.settled (tracks : Tracks log fd buffer) (none : newline ∉ buffer) :
    handed fd log = linesOf (stream fd log) ∧ buffer = unread (stream fd log) := by
  constructor
  · rw [tracks.lines, linesOf_of_not_mem none, List.append_nil]
  · rw [tracks.rest]
    exact (unfinished_of_not_mem none).symm

end Tracks

section Connections
variable {server : MonitorServer} {index : ℕ} {client : ClientConnection}

theorem length_connections (server : MonitorServer) : server.connections.length = server.clients_.length :=
  List.length_map _

theorem connections_at (atIndex : server.clients_[index]? = some client) :
    server.connections[index]? = some (client.fd, client.buffer) := by
  rw [MonitorServer.connections, List.getElem?_map, atIndex]
  rfl

/-- The connection at a position keeps its descriptor when its buffer is set. -/
theorem MonitorServer.setBuffer_at (atIndex : server.clients_[index]? = some client) (pending : Bytes) :
    (server.setBuffer index pending).clients_[index]? = some { client with buffer := pending } := by
  rw [setBuffer, modifyClient, List.getElem?_modify, atIndex]
  simp

theorem MonitorServer.setBuffer_self (atIndex : server.clients_[index]? = some client) :
    server.setBuffer index client.buffer = server := by
  have same : server.clients_.modify index (fun other => { other with buffer := client.buffer }) = server.clients_ := by
    refine List.ext_getElem? fun i => ?_
    rw [List.getElem?_modify]
    by_cases here : index = i
    · rw [← here, atIndex]
      simp
    · simp [here]
  rw [setBuffer, modifyClient, same]

theorem connections_setBuffer (atIndex : server.clients_[index]? = some client) (pending : Bytes) :
    (server.setBuffer index pending).connections = server.connections.set index (client.fd, pending) := by
  refine List.ext_getElem? fun i => ?_
  simp only [MonitorServer.connections, MonitorServer.setBuffer, MonitorServer.modifyClient, List.getElem?_map,
    List.getElem?_modify, List.getElem?_set, List.length_map]
  by_cases here : index = i
  · subst here
    obtain ⟨inside, is⟩ := List.getElem?_eq_some_iff.mp atIndex
    simp [inside, is]
  · simp [here]

/-- The connections after one buffer was set: that one, and the others under other descriptors. -/
theorem mem_set_cases {connections : List (ℕ × Bytes)} {fd : ℕ} {buffer pending : Bytes} {c : ℕ × Bytes}
    (distinct : (connections.map Prod.fst).Nodup) (atIndex : connections[index]? = some (fd, buffer))
    (member : c ∈ connections.set index (fd, pending)) : c = (fd, pending) ∨ c ∈ connections ∧ fd ≠ c.1 := by
  obtain ⟨i, atI⟩ := List.getElem?_of_mem member
  rw [List.getElem?_set] at atI
  split at atI
  · split at atI
    · exact Or.inl (Option.some.inj atI).symm
    · cases atI
  · rename_i other
    refine Or.inr ⟨List.mem_of_getElem? atI, fun same => other ?_⟩
    refine (List.getElem?_inj (by simpa using (List.getElem?_eq_some_iff.mp atIndex).1) distinct).mp ?_
    rw [List.getElem?_map, List.getElem?_map, atIndex, atI, Option.map_some, Option.map_some, same]

end Connections

/-- The invariant of the process: each open connection tracks its stream, each
other stream was handed on to its last newline, and nothing but a line that
`handle_line` does not return from has ended the process. -/
structure Reading (platform : Platform) (process : Process) : Prop where
  reached : ServerRun platform process.server (process.log.flatMap (Activity.entries platform))
  tracks : ∀ c ∈ process.server.connections, Tracks process.log c.1 c.2
  closed : ∀ fd, fd ∉ process.server.connections.map Prod.fst →
    handed fd process.log = linesOf (stream fd process.log)
  survives : process.ended = none ↔
    ∀ fd call, .handed fd call ∈ process.log → ∃ result, call.result platform = .ok result

/-- No connection has a complete line waiting. -/
def Quiet (server : MonitorServer) : Prop := ∀ c ∈ server.connections, newline ∉ c.2

section Reading
variable {platform : Platform} {process : Process} {index : ℕ} {client : ClientConnection}

theorem Reading.distinct (reading : Reading platform process) :
    (process.server.connections.map Prod.fst).Nodup := by
  rw [process.server.fst_connections]
  exact reading.reached.fds_nodup

theorem Reading.start : Reading platform {} where
  reached := .start
  tracks := List.forall_mem_nil _
  closed := fun _ _ => rfl
  survives := ⟨fun _ _ _ inNil => (nomatch inNil), fun _ => rfl⟩

/-- One buffer was set, and the log went on with something about that connection. -/
theorem Reading.setBuffer (reading : Reading platform process) (atIndex : process.server.clients_[index]? = some client)
    {log : List Activity} {pending : Bytes} (tracks : Tracks log client.fd pending)
    (others : ∀ fd, client.fd ≠ fd → stream fd log = stream fd process.log ∧ handed fd log = handed fd process.log) :
    (∀ c ∈ (process.server.setBuffer index pending).connections, Tracks log c.1 c.2) ∧
      ∀ fd, fd ∉ (process.server.setBuffer index pending).connections.map Prod.fst →
        handed fd log = linesOf (stream fd log) := by
  rw [connections_setBuffer atIndex]
  constructor
  · intro c member
    rcases mem_set_cases reading.distinct (connections_at atIndex) member with rfl | ⟨old, other⟩
    · exact tracks
    · obtain ⟨sameStream, sameHanded⟩ := others c.1 other
      have before := reading.tracks c old
      exact ⟨by rw [sameStream, sameHanded, before.lines], by rw [sameStream, before.rest]⟩
  · intro fd closed
    have known : (process.server.connections.set index (client.fd, pending)).map Prod.fst =
        process.server.connections.map Prod.fst := by
      rw [← connections_setBuffer atIndex, MonitorServer.fst_connections, MonitorServer.fst_connections]
      exact process.server.map_modifyClient index fun _ => rfl
    rw [known] at closed
    have other : client.fd ≠ fd := by
      rintro rfl
      exact closed (List.mem_map_of_mem (List.mem_of_getElem? (connections_at atIndex)))
    obtain ⟨sameStream, sameHanded⟩ := others fd other
    rw [sameStream, sameHanded, reading.closed fd closed]

theorem Reading.receive (reading : Reading platform process) (atIndex : process.server.clients_[index]? = some client)
    (chunk : Bytes) :
    Reading platform { process with
      server := process.server.setBuffer index (client.buffer ++ chunk)
      log := process.log ++ [.received client.fd chunk] } := by
  have waiting := reading.tracks _ (List.mem_of_getElem? (connections_at atIndex))
  obtain ⟨tracks, closed⟩ := reading.setBuffer atIndex (waiting.received chunk) fun fd other =>
    untouched (a := .received client.fd chunk) other _
  refine ⟨?_, tracks, closed, ?_⟩
  · rw [List.flatMap_append]
    exact reading.reached.next .buffer
  · simpa using reading.survives

/-- One iteration of the loop: a segment leaves the buffer, and `handle_line` is
called with it unless it is blank. -/
theorem Reading.take_line (reading : Reading platform process) (alive : process.ended = none)
    (atIndex : process.server.clients_[index]? = some client) {segment rest : Bytes}
    (first : cut newline client.buffer = some (segment, rest)) (clock : ℕ → Tm) :
    Reading platform (process.take_line platform clock index client.fd segment rest) ∧
      (process.take_line platform clock index client.fd segment rest).server.connections =
        process.server.connections.set index (client.fd, rest) := by
  obtain ⟨shape, absent⟩ := cut_eq_some first
  have waiting := reading.tracks _ (List.mem_of_getElem? (connections_at atIndex))
  rw [shape] at waiting
  have buffered : ServerRun platform (process.server.setBuffer index rest)
      (process.log.flatMap (Activity.entries platform)) := by
    rw [← List.append_nil (List.flatMap _ _)]
    exact reading.reached.next .buffer
  unfold Process.take_line
  dsimp only
  split
  · rename_i blank
    obtain ⟨tracks, closed⟩ := reading.setBuffer atIndex (waiting.skip absent blank) fun fd _ => ⟨rfl, rfl⟩
    exact ⟨⟨buffered, tracks, closed, reading.survives⟩, connections_setBuffer atIndex rest⟩
  · rename_i solid
    let call : Call := ⟨process.server.setBuffer index rest, clock, index, trim segment⟩
    have handed := waiting.hand absent solid (rfl : call.line = trim segment)
    obtain ⟨tracks, closed⟩ := reading.setBuffer atIndex handed fun fd other =>
      untouched (a := .handed client.fd call) other _
    have connections := connections_setBuffer atIndex rest
    have calls (fd : ℕ) (c : Call) (member : .handed fd c ∈ process.log ++ [.handed client.fd call]) :
        (∃ result, c.result platform = .ok result) ∨ c = call := by
      rcases List.mem_append.mp member with old | new
      · exact Or.inl (reading.survives.mp alive fd c old)
      · cases List.mem_singleton.mp new
        exact Or.inr rfl
    unfold Process.hand
    cases result : call.result platform with
    | ok returned =>
      obtain ⟨after, outputs⟩ := returned
      obtain ⟨_, -, handling⟩ := MonitorServer.handle_line_cases result
      have same : after.connections = (process.server.setBuffer index rest).connections := handling.connections
      rw [← same] at tracks closed connections
      dsimp only
      refine ⟨⟨?_, tracks, closed, ⟨fun _ fd c member => ?_, fun _ => alive⟩⟩, connections⟩
      · rw [List.flatMap_append, List.flatMap_singleton, Activity.entries, result]
        exact buffered.next (.handle result)
      · rcases calls fd c member with returned | rfl
        · exact returned
        · exact ⟨_, result⟩
    | error abort =>
      dsimp only
      refine ⟨⟨?_, tracks, closed, ⟨fun ended => (nomatch ended), fun all => ?_⟩⟩, connections⟩
      · rw [List.flatMap_append, List.flatMap_singleton, Activity.entries, result, List.append_nil]
        exact buffered
      · obtain ⟨returned, ok⟩ := all client.fd call (List.mem_append_right _ (List.mem_singleton_self _))
        rw [result] at ok
        cases ok

/-- The loop ends with the buffer cut to what follows the last newline, unless
a call of `handle_line` has ended the process. -/
theorem Reading.read_loop {fuel : ℕ} (reading : Reading platform process) (alive : process.ended = none)
    (atIndex : process.server.clients_[index]? = some client) (enough : client.buffer.length < fuel)
    (clock : ℕ → ℕ → Tm) :
    Reading platform (Process.read_loop platform index fuel clock process) ∧
      ((Process.read_loop platform index fuel clock process).ended = none → ∃ pending, newline ∉ pending ∧
        (Process.read_loop platform index fuel clock process).server.connections =
          process.server.connections.set index (client.fd, pending)) := by
  induction fuel generalizing process client clock with
  | zero => exact absurd enough (Nat.not_lt_zero _)
  | succ fuel ih =>
    rw [Process.read_loop, atIndex]
    dsimp only
    cases first : cut newline client.buffer with
    | none =>
      refine ⟨reading, fun _ => ⟨client.buffer, cut_eq_none first, ?_⟩⟩
      obtain ⟨inside, is⟩ := List.getElem?_eq_some_iff.mp (connections_at atIndex)
      rw [← is, List.set_getElem_self]
    | some cutting =>
      obtain ⟨segment, rest⟩ := cutting
      dsimp only
      obtain ⟨next, connections⟩ := reading.take_line alive atIndex first (clock 0)
      generalize process.take_line platform (clock 0) index client.fd segment rest = taken at next connections ⊢
      split
      · rename_i stopped
        exact ⟨next, fun goes => absurd stopped (by rw [goes]; decide)⟩
      · rename_i goes
        have alive' : taken.ended = none := by simpa using goes
        have inside : index < process.server.connections.length :=
          (List.getElem?_eq_some_iff.mp (connections_at atIndex)).1
        obtain ⟨again, atIndex', same⟩ : ∃ again, taken.server.clients_[index]? = some again ∧
            (again.fd, again.buffer) = (client.fd, rest) := by
          have at' : taken.server.connections[index]? = some (client.fd, rest) := by
            rw [connections, List.getElem?_set_self inside]
          rw [MonitorServer.connections, List.getElem?_map] at at'
          exact Option.map_eq_some_iff.mp at'
        obtain ⟨fd, buffer⟩ := Prod.mk.injEq .. ▸ same
        have shorter : again.buffer.length < fuel := by
          have length := congrArg List.length (cut_eq_some first).1
          rw [List.length_append, List.length_cons] at length
          rw [buffer]
          omega
        obtain ⟨final, quiet⟩ := ih next alive' atIndex' shorter fun k => clock (k + 1)
        refine ⟨final, fun goes => ?_⟩
        obtain ⟨pending, absent, set⟩ := quiet goes
        exact ⟨pending, absent, by rw [set, connections, List.set_set, fd]⟩

theorem Reading.read_client (reading : Reading platform process) (alive : process.ended = none)
    (atIndex : process.server.clients_[index]? = some client) (clock : ℕ → ℕ → Tm) (received : Bytes) :
    Reading platform (process.read_client platform clock index received).2 ∧
      ((process.read_client platform clock index received).2.ended = none →
        (process.read_client platform clock index received).2.server.connections = process.server.connections ∨
        ∃ pending, newline ∉ pending ∧ (process.read_client platform clock index received).2.server.connections =
          process.server.connections.set index (client.fd, pending)) := by
  rw [Process.read_client, atIndex]
  dsimp only
  split
  · have ended := reading.receive atIndex []
    rw [List.append_nil, MonitorServer.setBuffer_self atIndex] at ended
    exact ⟨ended, fun _ => Or.inl rfl⟩
  · have atIndex' := MonitorServer.setBuffer_at atIndex (client.buffer ++ received)
    obtain ⟨final, quiet⟩ := (reading.receive atIndex received).read_loop alive atIndex' (Nat.lt_succ_self _) clock
    refine ⟨final, fun goes => Or.inr ?_⟩
    obtain ⟨pending, absent, set⟩ := quiet goes
    exact ⟨pending, absent, by rw [set, connections_setBuffer atIndex, List.set_set]⟩

theorem Quiet.set {server after : MonitorServer} (quiet : Quiet server) {fd : ℕ} {pending : Bytes}
    (absent : newline ∉ pending) (connections : after.connections = server.connections.set index (fd, pending)) :
    Quiet after := by
  intro c member
  rw [connections] at member
  rcases List.mem_or_eq_of_mem_set member with old | rfl
  · exact quiet c old
  · exact absent

/-- The loop over the connections, up to position `k` of `size`. -/
structure Scan (platform : Platform) (size k : ℕ) (state : Process × List ℕ) : Prop where
  reading : Reading platform state.1
  quiet : state.1.ended = none → Quiet state.1.server ∧ state.1.server.connections.length = size
  gone : state.2.Pairwise (· < ·) ∧ ∀ i ∈ state.2, i < k

theorem Scan.keep {size k : ℕ} {state : Process × List ℕ} (scan : Scan platform size k state) :
    Scan platform size (k + 1) state :=
  ⟨scan.reading, scan.quiet, scan.gone.1, fun i member => Nat.lt_succ_of_lt (scan.gone.2 i member)⟩

theorem Scan.drop {size k : ℕ} {state : Process × List ℕ} (scan : Scan platform size k state) :
    Scan platform size (k + 1) (state.1, state.2 ++ [k]) := by
  refine ⟨scan.reading, scan.quiet, ?_, fun i member => ?_⟩
  · rw [List.pairwise_append]
    refine ⟨scan.gone.1, List.pairwise_singleton _ _, fun i member j last => ?_⟩
    rw [List.mem_singleton.mp last]
    exact scan.gone.2 i member
  · rcases List.mem_append.mp member with old | new
    · exact Nat.lt_succ_of_lt (scan.gone.2 i old)
    · rw [List.mem_singleton.mp new]
      exact Nat.lt_succ_self k

theorem Scan.visit {size k : ℕ} {state : Process × List ℕ} (scan : Scan platform size k state) (inside : k < size)
    (round : Round) : Scan platform size (k + 1) (Process.visit platform round state k) := by
  obtain ⟨process, gone⟩ := state
  unfold Process.visit
  split
  · exact scan.keep
  · rename_i goes
    have alive : process.ended = none := by simpa using goes
    obtain ⟨quiet, length⟩ := scan.quiet alive
    obtain ⟨client, atIndex⟩ : ∃ client, process.server.clients_[k]? = some client :=
      ⟨_, List.getElem?_eq_getElem (by rwa [← length_connections, length])⟩
    rw [atIndex]
    dsimp only
    split
    · exact scan.keep
    · exact scan.drop
    · rename_i received _
      obtain ⟨final, after⟩ := scan.reading.read_client alive atIndex (round.clock k) received
      have read : Scan platform size k ((process.read_client platform (round.clock k) k received).2, gone) := by
        refine ⟨final, fun goes => ?_, scan.gone⟩
        rcases after goes with same | ⟨pending, absent, set⟩
        · unfold Quiet
          rw [same]
          exact ⟨quiet, length⟩
        · exact ⟨quiet.set absent set, by rw [set, List.length_set, length]⟩
      split
      · exact read.keep
      · exact read.drop

theorem Scan.range {size : ℕ} {process : Process} (scan : Scan platform size 0 (process, [])) (round : Round) {k : ℕ}
    (inside : k ≤ size) :
    Scan platform size k ((List.range k).foldl (Process.visit platform round) (process, [])) := by
  induction k with
  | zero => exact scan
  | succ k ih =>
    rw [List.range_succ, List.foldl_append]
    exact (ih (Nat.le_of_succ_le inside)).visit inside round

/-- Closing a quiet connection loses no line. -/
theorem Reading.disconnect_client (reading : Reading platform process) (quiet : Quiet process.server)
    (atIndex : process.server.clients_[index]? = some client) :
    Reading platform (process.disconnect_client index) ∧ Quiet (process.disconnect_client index).server ∧
      (process.disconnect_client index).ended = process.ended ∧
      (process.disconnect_client index).server.connections = process.server.connections.eraseIdx index := by
  rw [Process.disconnect_client, atIndex]
  dsimp only
  have connections : (process.server.disconnect_client index).connections =
      process.server.connections.eraseIdx index := (List.eraseIdx_map ..).symm
  have closing (fd : ℕ) : stream fd (process.log ++ [.closed client.fd]) = stream fd process.log ∧
      handed fd (process.log ++ [.closed client.fd]) = handed fd process.log := by
    rw [stream_append, handed_append]
    exact ⟨rfl, rfl⟩
  refine ⟨⟨?_, fun c member => ?_, fun fd absent => ?_, ?_⟩, fun c member => ?_, rfl, connections⟩
  · rw [List.flatMap_append]
    exact reading.reached.next (.disconnect atIndex)
  · rw [connections] at member
    have before := reading.tracks c (List.mem_of_mem_eraseIdx member)
    exact ⟨by rw [(closing c.1).1, (closing c.1).2, before.lines], by rw [(closing c.1).1, before.rest]⟩
  · rw [(closing fd).1, (closing fd).2]
    by_cases known : fd ∈ process.server.connections.map Prod.fst
    · obtain ⟨c, member, rfl⟩ := List.mem_map.mp known
      exact ((reading.tracks c member).settled (quiet c member)).1
    · exact reading.closed fd known
  · simpa using reading.survives
  · rw [connections] at member
    exact quiet c (List.mem_of_mem_eraseIdx member)

/-- Disconnecting from the back leaves the positions in front in place. -/
theorem Reading.disconnect_all {gone : List ℕ} (reading : Reading platform process) (quiet : Quiet process.server)
    (descending : gone.Pairwise (· > ·)) (inside : ∀ i ∈ gone, i < process.server.connections.length) :
    Reading platform (gone.foldl Process.disconnect_client process) ∧
      Quiet (gone.foldl Process.disconnect_client process).server := by
  induction gone generalizing process with
  | nil => exact ⟨reading, quiet⟩
  | cons index gone ih =>
    rw [List.pairwise_cons] at descending
    have here := inside index List.mem_cons_self
    obtain ⟨client, atIndex⟩ : ∃ client, process.server.clients_[index]? = some client :=
      ⟨_, List.getElem?_eq_getElem (by rwa [← length_connections])⟩
    obtain ⟨reading', quiet', -, connections⟩ := reading.disconnect_client quiet atIndex
    refine ih reading' quiet' descending.2 fun i member => ?_
    rw [connections, List.length_eraseIdx_of_lt here]
    have lower := descending.1 i member
    omega

theorem Reading.accept_connection (reading : Reading platform process) (quiet : Quiet process.server)
    (accepted : Option (ℕ × Peer)) :
    Reading platform (process.accept_connection accepted) ∧ Quiet (process.accept_connection accepted).server ∧
      process.server.clients_.length ≤ (process.accept_connection accepted).server.connections.length := by
  cases accepted with
  | none => exact ⟨reading, quiet, (length_connections _).ge⟩
  | some peer =>
    obtain ⟨fd, peer⟩ := peer
    unfold Process.accept_connection
    dsimp only
    split
    · exact ⟨reading, quiet, (length_connections _).ge⟩
    · rename_i fresh
      have connections : (process.server.accept_connection fd peer).connections =
          process.server.connections ++ [(fd, [])] := by
        simp [MonitorServer.connections, MonitorServer.accept_connection]
      have other {c : ℕ × Bytes} (member : c ∈ process.server.connections) : fd ≠ c.1 := by
        rintro rfl
        rw [← process.server.fst_connections] at fresh
        exact fresh (List.mem_map_of_mem member)
      refine ⟨⟨?_, fun c member => ?_, fun target absent => ?_, ?_⟩, fun c member => ?_, ?_⟩
      · rw [List.flatMap_append]
        exact reading.reached.next (.accept fresh)
      · rw [connections] at member
        rcases List.mem_append.mp member with old | new
        · exact (reading.tracks c old).untouched (a := .accepted fd) (other old)
        · rw [List.mem_singleton.mp new]
          exact tracks_accepted process.log fd
      · rw [connections, List.map_append, List.mem_append, not_or] at absent
        have different : fd ≠ target := fun same => absent.2 (by simp [same])
        obtain ⟨sameStream, sameHanded⟩ := untouched (a := .accepted fd) different process.log
        rw [sameStream, sameHanded, reading.closed target absent.1]
      · simpa using reading.survives
      · rw [connections] at member
        rcases List.mem_append.mp member with old | new
        · exact quiet c old
        · rw [List.mem_singleton.mp new]
          exact List.not_mem_nil
      · rw [connections, List.length_append, length_connections]
        exact Nat.le_add_right _ _

/-- What a round keeps. -/
theorem Reading.round (reading : Reading platform process) (quiet : process.ended = none → Quiet process.server)
    (round : Round) :
    Reading platform (process.round platform round) ∧
      ((process.round platform round).ended = none → Quiet (process.round platform round).server) := by
  unfold Process.round
  split
  · exact ⟨reading, quiet⟩
  · rename_i goes
    obtain ⟨accepting, quiet', room⟩ := reading.accept_connection (quiet (by simpa using goes)) round.accepted
    have scan := Scan.range ⟨accepting, fun _ => ⟨quiet', rfl⟩, .nil, List.forall_mem_nil _⟩ round room
    dsimp only
    split
    · rename_i stopped
      exact ⟨scan.reading, fun goes => absurd stopped (by rw [goes]; decide)⟩
    · rename_i goes
      obtain ⟨quiet'', length⟩ := scan.quiet (Option.not_isSome_iff_eq_none.mp goes)
      obtain ⟨final, settled⟩ := scan.reading.disconnect_all quiet'' (List.pairwise_reverse.mpr scan.gone.1)
        fun i member => by
          rw [length]
          exact lt_of_lt_of_le (scan.gone.2 i (List.mem_reverse.mp member)) room
      exact ⟨final, fun _ => settled⟩

end Reading

theorem Process.run_reading (platform : Platform) (rounds : List Round) :
    Reading platform (run platform rounds) ∧
      ((run platform rounds).ended = none → Quiet (run platform rounds).server) := by
  induction rounds using List.reverseRecOn with
  | nil => exact ⟨.start, fun _ _ inNil => (nomatch inNil)⟩
  | append_singleton rounds round ih =>
    rw [run, List.foldl_append]
    exact ih.1.round ih.2 round

/-- What the process does is a run of the server, as far as it came. -/
theorem Process.run_refines (platform : Platform) (rounds : List Round) :
    ServerRun platform (run platform rounds).server
      ((run platform rounds).log.flatMap (Activity.entries platform)) :=
  (run_reading platform rounds).1.reached

/-- The call was made for a line whose numerals are within range. -/
def Call.InRange (platform : Platform) (call : Call) : Prop :=
  ∃ client, call.before.clients_[call.index]? = some client ∧ LineInRange platform client call.line

theorem Call.result_ok_iff {platform : Platform} {call : Call} :
    (∃ result, call.result platform = .ok result) ↔ call.InRange platform := by
  constructor
  · rintro ⟨⟨after, outputs⟩, ok⟩
    obtain ⟨client, atIndex, -⟩ := MonitorServer.handle_line_cases ok
    exact ⟨client, atIndex, (MonitorServer.handle_line_ok_iff atIndex).mp ⟨_, ok⟩⟩
  · rintro ⟨client, atIndex, range⟩
    exact (MonitorServer.handle_line_ok_iff atIndex).mpr range

/-- The process goes on, every line of every stream was handed on, in order and
once, and each buffer holds what follows the last newline of its stream. -/
def Process.Framed (process : Process) : Prop :=
  process.ended = none ∧
    (∀ fd, handed fd process.log = linesOf (stream fd process.log)) ∧
    ∀ client ∈ process.server.clients_, client.buffer = unread (stream client.fd process.log)

/-- However the streams of the connections are cut and interleaved: the lines
handed on are an initial part of those of the stream they come from, and they
are all of them, the rest being kept, exactly when the numerals of each line
handed on are within range. -/
theorem streams_framed_iff_in_range (platform : Platform) (rounds : List Round) :
    (∀ fd, handed fd (Process.run platform rounds).log <+: linesOf (stream fd (Process.run platform rounds).log)) ∧
      ((Process.run platform rounds).Framed ↔
        ∀ fd call, .handed fd call ∈ (Process.run platform rounds).log → call.InRange platform) := by
  obtain ⟨reading, quiet⟩ := Process.run_reading platform rounds
  generalize Process.run platform rounds = process at reading quiet
  have survives := reading.survives
  simp only [Call.result_ok_iff] at survives
  refine ⟨fun fd => ?_, fun framed => survives.mp framed.1, fun range => ?_⟩
  · by_cases known : fd ∈ process.server.connections.map Prod.fst
    · obtain ⟨c, member, rfl⟩ := List.mem_map.mp known
      exact ⟨_, (reading.tracks c member).lines.symm⟩
    · rw [reading.closed fd known]
  · have alive := survives.mpr range
    have settled (c : ℕ × Bytes) (member : c ∈ process.server.connections) :=
      (reading.tracks c member).settled (quiet alive c member)
    refine ⟨alive, fun fd => ?_, fun client member => ?_⟩
    · by_cases known : fd ∈ process.server.connections.map Prod.fst
      · obtain ⟨c, member, rfl⟩ := List.mem_map.mp known
        exact (settled c member).1
      · exact reading.closed fd known
    · exact (settled _ (List.mem_map_of_mem member)).2

/-- A line with an integer of 2^63 ends the process in the middle of a chunk:
the line behind it was received and is not handed on. -/
theorem overlong_integer_loses_lines :
    ¬ ∀ platform rounds fd, handed fd (Process.run platform rounds).log =
      linesOf (stream fd (Process.run platform rounds).log) := by
  intro framed
  let clock : ℕ → ℕ → ℕ → Tm := fun _ _ _ => ⟨2024, 1, 2, 3, 4, 5⟩
  let chunk := ascii "\x7b\"type\":\"register\",\"role\":\"agent\"\x7d\n" ++
    ascii "\x7b\"type\":\"metrics\",\"disk_used_mb\":9223372036854775808\x7d\n" ++
    ascii "\x7b\"type\":\"chat\"\x7d\n"
  let rounds : List Round :=
    [⟨some (4, ⟨(127, 0, 0, 1), 50000⟩), fun _ => .idle, clock⟩, ⟨none, fun _ => .readable chunk, clock⟩]
  have same := congrArg List.length (framed ⟨fun _ => false⟩ rounds 4)
  exact absurd same (by decide +kernel)

end SysNetMon
