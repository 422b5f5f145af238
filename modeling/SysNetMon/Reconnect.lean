import SysNetMon.ConnectorThreads
import SysNetMon.Consumer
import SysNetMon.DashboardMetrics
import SysNetMon.DashboardRules

/-!
The loop of `_run`: one connection after another, what of each is handled, and
what the dashboard holds after it has lost a connection and made a new one.
-/

namespace SysNetMon
open Bytes Framing Json

section Loop
variable (outside : ℕ → Bytes × Json)

/-- The body of the inner loop of `_consume`, with what it raises and what it
leaves. `outside i` gives what the call of `_handle_event` at position `i` meets. -/
def take_line (seen : Consumed) (line : List Char) : Option Raised × Consumed :=
  if line.all pyspace then (none, seen)
  else
    match loads (Utf8.encode line) with
    | none => (some .json, seen)
    | some event =>
      let (now, result) := outside seen.calls.length
      let after : Consumed := ⟨handled now result event seen.state, seen.calls ++ [event]⟩
      match handle_event now result event seen.state with
      | .ok _ => (none, after)
      | .error error => (some (.event error), after)

/-- The inner loop, with the buffer that it leaves. -/
def take_lines (buffer : List Char) (seen : Consumed) : Option Raised × List Char × Consumed :=
  match _cutting : cut '\n' buffer with
  | none => (none, buffer, seen)
  | some (line, rest) =>
    match take_line outside seen line with
    | (none, next) => take_lines rest next
    | (some raised, next) => (some raised, rest, next)
termination_by buffer.length
decreasing_by exact length_of_cut _cutting

/-- One pass of the loop of `_consume`. -/
def take_received (buffer : List Char) (seen : Consumed) : Recv → Option Raised × List Char × Consumed
  | .timeout => (none, buffer, seen)
  | .data chunk =>
    if chunk = [] then (some .closed, buffer, seen)
    else
      match Utf8.decode chunk with
      | none => (some .unicode, buffer, seen)
      | some text => take_lines outside (buffer ++ text) seen

/-- Where `_run` stands: in `create_connection`, in `recv` with a buffer, in `sleep`, or at its end. -/
inductive RunPhase where
  | connecting
  | consuming (buffer : List Char)
  | sleeping
  | finished

structure RunLoop where
  running : Bool := true
  connected : Bool := false
  socket : Option ℕ := none
  phase : RunPhase := .connecting
  seen : Consumed

/-- What `_run` meets: `stop` is called, the connection is not made or not
registered, it is made, `recv` returns, or `sleep` does. -/
inductive Happening where
  | stop
  | refused
  | opened (sock : ℕ)
  | recv (result : Recv)
  | woken

namespace RunLoop

/-- The handler of exceptions. -/
def retry (loop : RunLoop) : RunLoop := { loop with socket := none, connected := false, phase := .sleeping }

/-- What comes next where the condition of a loop is read. -/
def proceed (loop : RunLoop) (phase : RunPhase) : RunLoop :=
  { loop with phase := if loop.running then phase else .finished }

/-- A happening for which `_run` does not wait changes nothing. -/
def next (loop : RunLoop) : Happening → RunLoop
  | .stop => { loop with running := false }
  | .refused =>
    match loop.phase with
    | .connecting => loop.retry
    | _ => loop
  | .opened sock =>
    match loop.phase with
    | .connecting => { loop with socket := some sock, connected := true }.proceed (.consuming [])
    | _ => loop
  | .recv result =>
    match loop.phase with
    | .consuming buffer =>
      match take_received outside buffer loop.seen result with
      | (none, rest, seen) => { loop with seen }.proceed (.consuming rest)
      | (some _, _, seen) => { loop with seen }.retry
    | _ => loop
  | .woken =>
    match loop.phase with
    | .sleeping => loop.proceed .connecting
    | _ => loop

def run (loop : RunLoop) (happenings : List Happening) : RunLoop := happenings.foldl (next outside) loop

end RunLoop

end Loop

section Agrees
variable {outside : ℕ → Bytes × Json}

theorem take_line_of_ok {seen after : Consumed} {line : List Char} (taken : take_text outside seen line = .ok after) :
    take_line outside seen line = (none, after) := by
  unfold take_text at taken
  unfold take_line
  split
  · rename_i blank
    rw [if_pos blank] at taken
    cases taken
    rfl
  · rename_i solid
    rw [if_neg solid] at taken
    cases decoded : loads (Utf8.encode line) with
    | none =>
      rw [decoded] at taken
      cases taken
    | some event =>
      rw [decoded] at taken
      dsimp only at taken ⊢
      cases result : handle_event (outside seen.calls.length).1 (outside seen.calls.length).2 event seen.state with
      | error error =>
        rw [result] at taken
        cases taken
      | ok state =>
        rw [result] at taken
        cases taken
        simp only [handled, result]

theorem take_lines_of_ok {buffer : List Char} {seen : Consumed} {m : List Char × Consumed}
    (taken : split_lines outside buffer seen = .ok m) : take_lines outside buffer seen = (none, m.1, m.2) := by
  fun_induction split_lines outside buffer seen with
  | case1 buffer seen none =>
    cases taken
    rw [take_lines]
    split
    · rfl
    · rename_i line rest some
      rw [none] at some
      cases some
  | case2 buffer seen line rest some ih =>
    obtain ⟨next, first, later⟩ := bind_eq_ok_iff.mp taken
    rw [take_lines]
    split
    · rename_i none
      rw [none] at some
      cases some
    · rename_i line' rest' some'
      rw [some] at some'
      cases some'
      rw [take_line_of_ok first]
      exact ih next later

/-- While `_run` is to go on, it stays in `recv` after what it could take. -/
theorem RunLoop.next_recv {loop : RunLoop} (running : loop.running = true) {buffer rest : List Char}
    (phase : loop.phase = .consuming buffer) {result : Recv} {seen : Consumed}
    (taken : take_received outside buffer loop.seen result = (none, rest, seen)) :
    loop.next outside (.recv result) = { loop with phase := .consuming rest, seen } := by
  unfold next
  rw [phase]
  dsimp only
  rw [taken]
  dsimp only [proceed]
  rw [if_pos running]

/-- Whatever raises, `_run` gives up the connection and waits. -/
theorem RunLoop.next_raised {loop : RunLoop} {buffer rest : List Char} (phase : loop.phase = .consuming buffer)
    {result : Recv} {error : Raised} {seen : Consumed}
    (raised : take_received outside buffer loop.seen result = (some error, rest, seen)) :
    loop.next outside (.recv result) = { loop with socket := none, connected := false, phase := .sleeping, seen } := by
  unfold next
  rw [phase]
  dsimp only
  rw [raised]
  rfl

theorem RunLoop.next_woken {loop : RunLoop} (running : loop.running = true) (phase : loop.phase = .sleeping) :
    loop.next outside .woken = { loop with phase := .connecting } := by
  unfold next
  rw [phase]
  dsimp only [proceed]
  rw [if_pos running]

theorem RunLoop.next_refused {loop : RunLoop} (phase : loop.phase = .connecting) :
    loop.next outside .refused = loop.retry := by
  unfold next
  rw [phase]

/-- Where `_consume` does not raise, `_run` follows it and stays connected. -/
theorem RunLoop.run_of_consume {loop : RunLoop} (running : loop.running = true) {buffer : List Char}
    (phase : loop.phase = .consuming buffer) {recvs : List Recv} {m : List Char × Consumed}
    (consumed : consume outside recvs buffer loop.seen = .ok m) :
    loop.run outside (recvs.map .recv) = { loop with phase := .consuming m.1, seen := m.2 } := by
  induction recvs generalizing loop buffer with
  | nil =>
    cases consumed
    rw [← phase]
    rfl
  | cons recv more ih =>
    cases recv with
    | timeout =>
      have stayed : loop.next outside (.recv .timeout) = { loop with phase := .consuming buffer } :=
        next_recv running phase rfl
      change (loop.next outside (.recv .timeout)).run outside (more.map .recv) = _
      rw [stayed]
      exact ih running rfl consumed
    | data chunk =>
      unfold consume at consumed
      split at consumed
      · cases consumed
      · rename_i some
        cases decoded : Utf8.decode chunk with
        | none =>
          rw [decoded] at consumed
          cases consumed
        | some text =>
          rw [decoded] at consumed
          obtain ⟨middle, first, later⟩ := bind_eq_ok_iff.mp consumed
          have taken : take_received outside buffer loop.seen (.data chunk) = (none, middle.1, middle.2) := by
            rw [take_received, if_neg some, decoded]
            exact take_lines_of_ok first
          change (loop.next outside (.recv (.data chunk))).run outside (more.map .recv) = _
          rw [next_recv running phase taken]
          exact ih running rfl later

/-- A new connection on which the lines of some events have arrived, cut anywhere
between characters, and perhaps the start of a further line. -/
theorem RunLoop.run_of_lines {loop : RunLoop} (running : loop.running = true) (phase : loop.phase = .connecting)
    (sock : ℕ) {events : List ServerEvent} {tail : Bytes} {recvs : List Recv}
    (decode : ∀ event ∈ events, (loads (ServerEvent.to_json event)).isSome) (unended : newline ∉ tail)
    (solid : ∀ chunk ∈ chunks recvs, chunk ≠ []) (valid : ∀ chunk ∈ chunks recvs, Utf8.Valid chunk)
    (bytes : (chunks recvs).flatten = events.flatMap ServerEvent.wireLine ++ tail) :
    ∃ buffer, loop.run outside (.opened sock :: recvs.map .recv) =
      { loop with
        connected := true
        socket := some sock
        phase := .consuming buffer
        seen := ⟨loop.seen.state.afterAll (fun i => outside (loop.seen.calls.length + i)) events,
          loop.seen.calls ++ events.map ServerEvent.toObject⟩ } := by
  obtain ⟨text, encoded, consumed⟩ := consume_eq outside solid valid
  obtain ⟨last, taken, calls, states⟩ := take_texts_events outside decode
    (segments_of_lines unended (encoded.trans bytes)) loop.seen
  have opened : loop.next outside (.opened sock) =
      { loop with socket := some sock, connected := true, phase := .consuming [] } := by
    unfold next
    rw [phase]
    dsimp only [proceed]
    rw [if_pos running]
  have through : consume outside recvs [] loop.seen = .ok (unfinished '\n' text, last) := by
    rw [consumed [] loop.seen List.not_mem_nil, List.nil_append, taken]
    rfl
  rw [handle_events_toObject] at states
  have same : last = ⟨loop.seen.state.afterAll (fun i => outside (loop.seen.calls.length + i)) events,
      loop.seen.calls ++ events.map ServerEvent.toObject⟩ := by
    cases last
    cases calls
    cases states
    rfl
  refine ⟨unfinished '\n' text, ?_⟩
  change (loop.next outside (.opened sock)).run outside (recvs.map .recv) = _
  rw [opened]
  have run := @run_of_consume outside { loop with socket := some sock, connected := true, phase := .consuming [] } running
    [] rfl recvs _ through
  rw [run, same]

theorem DashboardState.afterAll_append (state : DashboardState) (outside : ℕ → Bytes × Json)
    (earlier later : List ServerEvent) :
    state.afterAll outside (earlier ++ later) =
      (state.afterAll outside earlier).afterAll (fun i => outside (earlier.length + i)) later := by
  induction earlier generalizing state outside with
  | nil => simp [afterAll]
  | cons event earlier ih =>
    rw [List.cons_append, afterAll, ih, afterAll, List.length_cons]
    simp only [Nat.add_right_comm _ 1]

end Agrees

/-- What `_run` has of what `_lock` guards. -/
def RunLoop.shared (loop : RunLoop) : ConnectorState := ⟨loop.seen.state, loop.connected, loop.socket⟩

def LockedSection.event? : LockedSection → Option Json
  | handle_event _ _ event => some event
  | _ => none

/-- The sections of `_run` that lead from one state to another, and make these calls of `_handle_event`. -/
structure Through (sections : List LockedSection) (before after : ConnectorState) (calls : List Json) : Prop where
  own : ∀ b ∈ sections, ∀ caller, enters .run caller b
  effect : after = sections.foldl (fun shared b => b.effect shared) before
  calls : sections.filterMap LockedSection.event? = calls

section Sections
variable {outside : ℕ → Bytes × Json} {before middle after : ConnectorState}

theorem Through.nil : Through [] before before [] := ⟨List.forall_mem_nil _, rfl, rfl⟩

theorem Through.trans {first second : List LockedSection} {calls more : List Json}
    (one : Through first before middle calls) (two : Through second middle after more) :
    Through (first ++ second) before after (calls ++ more) := by
  refine ⟨List.forall_mem_append.mpr ⟨one.own, two.own⟩, ?_, ?_⟩
  · rw [List.foldl_append, ← one.effect]
    exact two.effect
  · rw [List.filterMap_append, one.calls, two.calls]

/-- What is done with a line is one section, or none. -/
theorem take_line_through (outside : ℕ → Bytes × Json) (seen : Consumed) (line : List Char) (connected : Bool)
    (socket : Option ℕ) : ∃ sections calls,
      Through sections ⟨seen.state, connected, socket⟩ ⟨(take_line outside seen line).2.state, connected, socket⟩ calls ∧
        (take_line outside seen line).2.calls = seen.calls ++ calls := by
  unfold take_line
  split
  · exact ⟨[], [], .nil, (List.append_nil _).symm⟩
  · cases loads (Utf8.encode line) with
    | none => exact ⟨[], [], .nil, (List.append_nil _).symm⟩
    | some event =>
      have one : Through [.handle_event (outside seen.calls.length).1 (outside seen.calls.length).2 event]
          ⟨seen.state, connected, socket⟩
          ⟨handled (outside seen.calls.length).1 (outside seen.calls.length).2 event seen.state, connected, socket⟩ [event] :=
        ⟨List.forall_mem_singleton.mpr fun _ => trivial, rfl, rfl⟩
      dsimp only
      cases handle_event (outside seen.calls.length).1 (outside seen.calls.length).2 event seen.state with
      | ok state => exact ⟨_, _, one, rfl⟩
      | error error => exact ⟨_, _, one, rfl⟩

theorem take_lines_through (outside : ℕ → Bytes × Json) (buffer : List Char) (seen : Consumed) (connected : Bool)
    (socket : Option ℕ) : ∃ sections calls,
      Through sections ⟨seen.state, connected, socket⟩ ⟨(take_lines outside buffer seen).2.2.state, connected, socket⟩
          calls ∧
        (take_lines outside buffer seen).2.2.calls = seen.calls ++ calls ∧
        ((take_lines outside buffer seen).1 = none → '\n' ∉ (take_lines outside buffer seen).2.1) := by
  fun_induction take_lines outside buffer seen with
  | case1 buffer seen none => exact ⟨[], [], .nil, (List.append_nil _).symm, fun _ => cut_eq_none none⟩
  | case2 buffer seen line rest some next taken ih =>
    obtain ⟨first, calls, one, longer⟩ := take_line_through outside seen line connected socket
    rw [taken] at one longer
    obtain ⟨second, more, two, longer', settled⟩ := ih
    exact ⟨first ++ second, calls ++ more, one.trans two, by rw [longer', longer, List.append_assoc], settled⟩
  | case3 buffer seen line rest some raised next taken =>
    obtain ⟨first, calls, one, longer⟩ := take_line_through outside seen line connected socket
    rw [taken] at one longer
    exact ⟨first, calls, one, longer, fun none => by cases none⟩

theorem take_received_through (outside : ℕ → Bytes × Json) {buffer : List Char} (settled : '\n' ∉ buffer) (seen : Consumed)
    (result : Recv) (connected : Bool) (socket : Option ℕ) : ∃ sections calls,
      Through sections ⟨seen.state, connected, socket⟩
          ⟨(take_received outside buffer seen result).2.2.state, connected, socket⟩ calls ∧
        (take_received outside buffer seen result).2.2.calls = seen.calls ++ calls ∧
        ((take_received outside buffer seen result).1 = none → '\n' ∉ (take_received outside buffer seen result).2.1) := by
  cases result with
  | timeout => exact ⟨[], [], .nil, (List.append_nil _).symm, fun _ => settled⟩
  | data chunk =>
    unfold take_received
    dsimp only
    split
    · exact ⟨[], [], .nil, (List.append_nil _).symm, fun _ => settled⟩
    · cases Utf8.decode chunk with
      | none => exact ⟨[], [], .nil, (List.append_nil _).symm, fun _ => settled⟩
      | some text => exact take_lines_through outside (buffer ++ text) seen connected socket

/-- `connected` is about the socket; where `_run` reads from a connection it is set,
and no complete line waits; and as long as `_run` is to go on, it is set nowhere else. -/
structure RunLoop.Sound (loop : RunLoop) : Prop where
  socket : loop.connected = loop.socket.isSome
  reading : ∀ buffer, loop.phase = .consuming buffer → loop.connected = true ∧ '\n' ∉ buffer
  apart : loop.running = true → loop.connected = true → ∃ buffer, loop.phase = .consuming buffer

theorem RunLoop.Sound.retry (loop : RunLoop) : loop.retry.Sound where
  socket := rfl
  reading _ consuming := by cases consuming
  apart _ connected := absurd connected Bool.false_ne_true

/-- Where it goes on with a connection, it reads from it. -/
theorem RunLoop.Sound.proceed {loop : RunLoop} {buffer : List Char} (settled : '\n' ∉ buffer)
    (connected : loop.connected = true) (socket : loop.connected = loop.socket.isSome) :
    (loop.proceed (.consuming buffer)).Sound := by
  refine ⟨socket, fun other reading => ?_, fun running _ => ⟨buffer, if_pos running⟩⟩
  unfold RunLoop.proceed at reading
  dsimp only at reading
  split at reading
  · cases reading
    exact ⟨connected, settled⟩
  · cases reading

/-- Where it goes on after `sleep`, it has no connection. -/
theorem RunLoop.Sound.woken {loop : RunLoop} (sound : loop.Sound) (sleeping : loop.phase = .sleeping) :
    (loop.proceed .connecting).Sound := by
  refine ⟨sound.socket, fun buffer reading => ?_, fun running connected => ?_⟩
  · unfold RunLoop.proceed at reading
    dsimp only at reading
    split at reading <;> cases reading
  · obtain ⟨buffer, reading⟩ := sound.apart running connected
    rw [sleeping] at reading
    cases reading

theorem RunLoop.next_through {loop : RunLoop} (sound : loop.Sound) (happening : Happening) : ∃ sections calls,
    Through sections loop.shared (loop.next outside happening).shared calls ∧
      (loop.next outside happening).seen.calls = loop.seen.calls ++ calls ∧ (loop.next outside happening).Sound := by
  have stays : ∃ sections calls, Through sections loop.shared loop.shared calls ∧
      loop.seen.calls = loop.seen.calls ++ calls ∧ loop.Sound := ⟨[], [], .nil, (List.append_nil _).symm, sound⟩
  have gives_up (before : ConnectorState) (after : RunLoop) (same : after.seen.state = before.state) :
      Through [.retry] before after.retry.shared [] := by
    refine ⟨List.forall_mem_singleton.mpr fun _ => trivial, ?_, rfl⟩
    rw [RunLoop.shared, RunLoop.retry, same]
    rfl
  cases happening with
  | stop =>
    exact ⟨[], [], .nil, (List.append_nil _).symm, sound.socket, sound.reading, fun running => absurd running
      Bool.false_ne_true⟩
  | refused =>
    unfold next
    cases phase : loop.phase with
    | connecting => exact ⟨[.retry], [], gives_up _ loop rfl, (List.append_nil _).symm, .retry loop⟩
    | _ => exact stays
  | opened sock =>
    unfold next
    cases phase : loop.phase with
    | connecting =>
      exact ⟨[.connect sock], [], ⟨List.forall_mem_singleton.mpr fun _ => trivial, rfl, rfl⟩, (List.append_nil _).symm,
        .proceed List.not_mem_nil rfl rfl⟩
    | _ => exact stays
  | woken =>
    unfold next
    cases phase : loop.phase with
    | sleeping =>
      exact ⟨[], [], .nil, (List.append_nil _).symm, .woken sound phase⟩
    | _ => exact stays
  | recv result =>
    unfold next
    cases phase : loop.phase with
    | consuming buffer =>
      obtain ⟨connected, quiet⟩ := sound.reading buffer phase
      obtain ⟨sections, calls, through, longer, settled⟩ := take_received_through outside quiet loop.seen result
        loop.connected loop.socket
      dsimp only
      cases taken : take_received outside buffer loop.seen result with
      | mk raised rest =>
        rw [taken] at through longer settled
        cases raised with
        | some error =>
          exact ⟨sections ++ [.retry], calls ++ [], through.trans (gives_up _ { loop with seen := rest.2 } rfl), by
            rw [List.append_nil]; exact longer, .retry _⟩
        | none =>
          exact ⟨sections, calls, through, longer, .proceed (settled rfl) connected sound.socket⟩
    | _ => exact stays

/-- Whatever `_run` meets, in any order: what it makes of the state is what some
sections of its own make of it, one after another, whose events are those that
`_handle_event` was called with; and as long as it is not stopped, the state says
that it is connected exactly while it reads from a connection. -/
theorem run_loop_through_sections (outside : ℕ → Bytes × Json) (state : DashboardState) (happenings : List Happening) :
    ∃ sections, Through sections ⟨state, false, none⟩ (RunLoop.run outside { seen := ⟨state, []⟩ } happenings).shared
        (RunLoop.run outside { seen := ⟨state, []⟩ } happenings).seen.calls ∧
      (RunLoop.run outside { seen := ⟨state, []⟩ } happenings).Sound := by
  induction happenings using List.reverseRecOn with
  | nil =>
    refine ⟨[], .nil, rfl, fun _ reading => ?_, fun _ connected => absurd connected Bool.false_ne_true⟩
    cases reading
  | append_singleton happenings happening ih =>
    obtain ⟨sections, through, sound⟩ := ih
    obtain ⟨more, calls, through', longer, sound'⟩ := RunLoop.next_through sound happening
    rw [RunLoop.run, List.foldl_append]
    exact ⟨sections ++ more, longer ▸ through.trans through', sound'⟩

end Sections

/-- A connection that is lost: the events whose lines arrived whole, what had
arrived of the next line, the results of `recv`, and the last of them, which is
no text. -/
structure Session where
  sock : ℕ
  events : List ServerEvent
  tail : Bytes
  recvs : List Recv
  lost : Bytes

def Session.happenings (session : Session) : List Happening :=
  .opened session.sock :: session.recvs.map .recv ++ [.recv (.data session.lost), .woken]

structure Session.Arrives (session : Session) : Prop where
  decode : ∀ event ∈ session.events, (loads (ServerEvent.to_json event)).isSome
  unended : newline ∉ session.tail
  solid : ∀ chunk ∈ chunks session.recvs, chunk ≠ []
  valid : ∀ chunk ∈ chunks session.recvs, Utf8.Valid chunk
  bytes : (chunks session.recvs).flatten = session.events.flatMap ServerEvent.wireLine ++ session.tail
  lost : session.lost = [] ∨ Utf8.decode session.lost = none

section Sessions
variable (outside : ℕ → Bytes × Json)

theorem RunLoop.run_append (loop : RunLoop) (earlier later : List Happening) :
    loop.run outside (earlier ++ later) = (loop.run outside earlier).run outside later := List.foldl_append

/-- Between two connections `_run` keeps what it has handled, and no buffer. -/
theorem RunLoop.run_session {loop : RunLoop} (running : loop.running = true) (phase : loop.phase = .connecting)
    {session : Session} (arrives : session.Arrives) :
    loop.run outside session.happenings =
      { loop with
        connected := false
        socket := none
        phase := .connecting
        seen := ⟨loop.seen.state.afterAll (fun i => outside (loop.seen.calls.length + i)) session.events,
          loop.seen.calls ++ session.events.map ServerEvent.toObject⟩ } := by
  obtain ⟨buffer, handled⟩ := @run_of_lines outside loop running phase session.sock session.events session.tail
    session.recvs arrives.decode arrives.unended arrives.solid arrives.valid arrives.bytes
  have raised (seen : Consumed) : ∃ error,
      take_received outside buffer seen (.data session.lost) = (some error, buffer, seen) := by
    rw [take_received]
    rcases arrives.lost with empty | invalid
    · exact ⟨.closed, if_pos empty⟩
    · rw [invalid]
      split
      · exact ⟨.closed, rfl⟩
      · exact ⟨.unicode, rfl⟩
  obtain ⟨error, raises⟩ := raised ⟨loop.seen.state.afterAll (fun i => outside (loop.seen.calls.length + i)) session.events,
    loop.seen.calls ++ session.events.map ServerEvent.toObject⟩
  rw [Session.happenings, run_append, handled]
  change next outside (next outside _ (.recv (.data session.lost))) .woken = _
  rw [next_raised rfl raises]
  exact next_woken running rfl

/-- One pass of the loop of `_run`. -/
inductive Pass where
  | refused
  | lost (session : Session)

def Pass.happenings : Pass → List Happening
  | refused => [.refused, .woken]
  | lost session => session.happenings

def Pass.events : Pass → List ServerEvent
  | refused => []
  | lost session => session.events

def Pass.Arrives : Pass → Prop
  | refused => True
  | lost session => session.Arrives

/-- Over any number of connections, refused or lost: the events that are handled are
those whose lines arrived whole before what the connection was lost with, an end of
stream or a chunk that is no text, in order and each once. The start of a line that
was cut off is dropped, and is no part of what is read from the next connection. -/
theorem sessions_handle_whole_lines (state : DashboardState) {passes : List Pass}
    (arrive : ∀ pass ∈ passes, pass.Arrives) :
    RunLoop.run outside { seen := ⟨state, []⟩ } (passes.flatMap Pass.happenings) =
      { seen := ⟨state.afterAll outside (passes.flatMap Pass.events),
          (passes.flatMap Pass.events).map ServerEvent.toObject⟩ } := by
  induction passes using List.reverseRecOn with
  | nil => rfl
  | append_singleton passes pass ih =>
    rw [List.flatMap_append, RunLoop.run_append, ih fun other member => arrive other (List.mem_append_left _ member),
      List.flatMap_singleton, List.flatMap_append, List.flatMap_singleton]
    cases pass with
    | refused =>
      rw [Pass.events, List.append_nil, Pass.happenings, RunLoop.run, List.foldl_cons, List.foldl_cons, List.foldl_nil,
        RunLoop.next_refused rfl]
      exact RunLoop.next_woken rfl rfl
    | lost session =>
      have arrives : session.Arrives := arrive (.lost session) (by simp)
      rw [Pass.happenings, Pass.events, RunLoop.run_session outside rfl rfl arrives]
      dsimp only
      rw [List.map_append, DashboardState.afterAll_append, List.length_map]

end Sessions

theorem valid_of_small {s : Bytes} (small : s.all (fun ch => ch.toNat < 128) = true) : Utf8.Valid s :=
  Utf8.valid_ascii fun ch member => of_decide_eq_true (List.all_eq_true.mp small ch member)

/-- A dashboard that was refused and then lost a connection in the middle of a line. -/
theorem sessions_handle_whole_lines_cut : ∃ (passes : List Pass) (last : RunLoop), passes.length = 2 ∧
    RunLoop.run (fun _ => ([], .null)) { seen := ⟨{ aws := .null }, []⟩ } (passes.flatMap Pass.happenings) = last ∧
      last.seen.calls = [(ServerEvent.ack (ascii "hi")).toObject] := by
  let event := ServerEvent.ack (ascii "hi")
  let session : Session := ⟨3, [event], ascii "\x7b\"ty", [.data (event.wireLine ++ ascii "\x7b\"ty")], []⟩
  have small : (event.wireLine ++ ascii "\x7b\"ty").all (fun ch => ch.toNat < 128) = true := by decide +kernel
  have valid : Utf8.Valid (event.wireLine ++ ascii "\x7b\"ty") := valid_of_small small
  have arrives : session.Arrives :=
    ⟨List.forall_mem_singleton.mpr (by decide +kernel), by decide, List.forall_mem_singleton.mpr (by decide +kernel),
      List.forall_mem_singleton.mpr valid, by decide +kernel, Or.inl rfl⟩
  have arrive : ∀ pass ∈ [Pass.refused, Pass.lost session], pass.Arrives :=
    List.forall_mem_cons.mpr ⟨trivial, List.forall_mem_singleton.mpr arrives⟩
  exact ⟨[.refused, .lost session], _, rfl, sessions_handle_whole_lines _ _ arrive, rfl⟩

/-- A dashboard that makes a new connection: whatever was lost before and whatever
it holds, once the lines that the server has sent on the new connection are in, in
chunks of text, and all of them decode, it says that it is connected, it has handled
each of their events once, and its metrics and its rules are the server's. -/
theorem reconnected_dashboard_agrees {platform : Platform} {server : MonitorServer} {log : List Entry}
    {connection : ClientConnection} (run : ServerRun platform server log) (member : connection ∈ server.clients_)
    (role : connection.role = .Dashboard) (outside : ℕ → Bytes × Json) {loop : RunLoop} (running : loop.running = true)
    (phase : loop.phase = .connecting) (sock : ℕ) {tail : Bytes} {recvs : List Recv}
    (decode : ∀ event ∈ wire connection.fd log, (loads (ServerEvent.to_json event)).isSome) (unended : newline ∉ tail)
    (solid : ∀ chunk ∈ chunks recvs, chunk ≠ []) (valid : ∀ chunk ∈ chunks recvs, Utf8.Valid chunk)
    (bytes : (chunks recvs).flatten = (wire connection.fd log).flatMap ServerEvent.wireLine ++ tail) :
    let last := loop.run outside (.opened sock :: recvs.map .recv)
    last.connected = true ∧ last.socket = some sock ∧
      last.seen.calls = loop.seen.calls ++ (wire connection.fd log).map ServerEvent.toObject ∧
      last.seen.state.rules = .arr (server.alert_rules_.map ruleRecord) ∧
      ∀ host, Followed platform log host →
        last.seen.state.metrics.lookup host = (server.latest_metrics_.lookup host).map metricRecord := by
  obtain ⟨buffer, ran⟩ := @RunLoop.run_of_lines outside loop running phase sock (wire connection.fd log) tail recvs decode
    unended solid valid bytes
  dsimp only
  rw [ran]
  refine ⟨rfl, rfl, rfl, ?_, ?_⟩
  · dsimp only
    rw [DashboardState.afterAll_rules]
    exact run.dashboard_rules connection member role loop.seen.state.rules
  · dsimp only
    rw [DashboardState.afterAll_metrics]
    exact run.dashboard_agrees connection member role loop.seen.state.metrics

/-- A dashboard with a rule and no connection registers with a server that has none. -/
theorem reconnected_dashboard_agrees_forgets : ∃ (loop last : RunLoop), loop.seen.state.rules = .arr [.null] ∧
    last.connected = true ∧ last.seen.state.rules = .arr [] := by
  let platform : Platform := ⟨fun _ => false⟩
  let requests : List Request :=
    [.accept 4 ⟨(127, 0, 0, 1), 50000⟩,
     .line (fun _ => ⟨2024, 1, 2, 3, 4, 5⟩) 0 (ascii "\x7b\"type\":\"register\",\"role\":\"dashboard\"\x7d")]
  have served : MonitorServer.servesTo platform requests (fun server log =>
      server.alert_rules_.isEmpty &&
        (server.clients_.any fun connection => decide (connection.role = .Dashboard ∧ connection.fd = 4)) &&
        (wire 4 log).all (fun event => (loads event.to_json).isSome) && !(wire 4 log).isEmpty &&
        ((wire 4 log).flatMap ServerEvent.wireLine).all (fun ch => ch.toNat < 128)) = true := by decide +kernel
  obtain ⟨server, log, run, tested⟩ := MonitorServer.run_of_servesTo served
  simp only [Bool.and_eq_true, List.any_eq_true, decide_eq_true_eq, List.isEmpty_iff] at tested
  obtain ⟨⟨⟨⟨none, connection, member, role, fd⟩, decode⟩, some⟩, small⟩ := tested
  have bytes : (wire connection.fd log).flatMap ServerEvent.wireLine ≠ [] := by
    rw [fd]
    cases sent : wire 4 log with
    | nil =>
      rw [sent] at some
      cases some
    | cons event events => simp [ServerEvent.wireLine]
  let loop : RunLoop := { seen := ⟨{ rules := .arr [.null], aws := .null }, []⟩ }
  obtain ⟨connected, -, -, rules, -⟩ := @reconnected_dashboard_agrees platform server log connection run member role
    (fun _ => ([], .null)) loop rfl rfl 3 [] [.data ((wire connection.fd log).flatMap ServerEvent.wireLine)]
    (by rw [fd]; exact List.all_eq_true.mp decode) List.not_mem_nil (List.forall_mem_singleton.mpr bytes)
    (List.forall_mem_singleton.mpr (valid_of_small (by rw [fd]; exact small))) (by simp [chunks])
  refine ⟨loop, _, rfl, connected, rules.trans ?_⟩
  rw [none]
  rfl

end SysNetMon
