import SysNetMon.Collections
import SysNetMon.Dashboard
import SysNetMon.Locking

/-!
The threads of the dashboard on one `MonitorConnector`: the thread of `_run`, and
those that answer requests. What they do under `_lock`, statement by statement.
-/

namespace SysNetMon
open Bytes Json Locking

/-- The statements of `_handle_event` that change `state`, up to where it raises. -/
def handle_steps (now : Bytes) (result event : Json) : List (DashboardState → DashboardState) :=
  match event with
  | .obj event =>
    let event_type := pyGet event "type" .null
    (fun state => { state with last_event := some now }) ::
      if isType event_type "snapshot" then
        match pyGet event "metrics" (.arr []) with
        | .arr items => (metricsByHost items).toOption.toList.map fun metrics state => { state with metrics }
        | _ => []
      else if isType event_type "metric" then
        match pyGet event "data" (.obj []) with
        | .obj metric =>
          if truthy (pyGet metric "host" .null) then
            (hostOf (.obj metric)).toOption.toList.map fun host state =>
              { state with metrics := state.metrics.insert host (.obj metric) }
          else []
        | _ => []
      else if isType event_type "alert" then
        [fun state => { state with alerts := state.alerts ++ [pyGet event "data" (.obj [])] },
          fun state => { state with alerts := lastItems 50 state.alerts },
          fun state => { state with aws := result }]
      else if isType event_type "chat" then
        let entry := .obj [(ascii "from", pyGet event "from" (.str (ascii "unknown"))),
          (ascii "text", pyGet event "text" (.str [])), (ascii "timestamp", pyGet event "timestamp" (.str now))]
        [fun state => { state with chat := state.chat ++ [entry] },
          fun state => { state with chat := lastItems 80 state.chat }]
      else if isType event_type "rules" then [fun state => { state with rules := pyGet event "items" (.arr []) }]
      else if isType event_type "ack" || isType event_type "error" then
        let entry := .obj [(ascii "from", event_type), (ascii "text", pyGet event "message" (.str [])),
          (ascii "timestamp", .str now)]
        [fun state => { state with chat := state.chat ++ [entry] },
          fun state => { state with chat := lastItems 80 state.chat }]
      else []
  | _ => []

/-- The state that `_handle_event` leaves, also where it raises: the item is
looked up before anything but `last_event` is changed. -/
def handled (now : Bytes) (result event : Json) (state : DashboardState) : DashboardState :=
  match handle_event now result event state with
  | .ok after => after
  | .error _ =>
    match event with
    | .obj _ => { state with last_event := some now }
    | _ => state

/-- The statements one after another are `_handle_event`. -/
theorem handle_steps_run (now : Bytes) (result event : Json) (state : DashboardState) :
    (handle_steps now result event).foldl (fun state step => step state) state = handled now result event state := by
  unfold handled
  cases event with
  | obj event =>
    unfold handle_steps handle_event
    dsimp only
    split
    · cases pyGet event "metrics" (.arr []) with
      | arr items =>
        dsimp only
        cases metricsByHost items <;> rfl
      | _ => rfl
    · split
      · cases pyGet event "data" (.obj []) with
        | obj metric =>
          dsimp only
          split
          · cases hostOf (.obj metric) <;> rfl
          · rfl
        | _ => rfl
      · split
        · rfl
        · split
          · rfl
          · split
            · rfl
            · split
              · rfl
              · cases pyGet event "type" .null <;> rfl
  | _ => rfl

/-- What `_lock` guards: `state`, its entry `connected`, and `_socket`. -/
structure ConnectorState where
  state : DashboardState
  connected : Bool := false
  socket : Option ℕ := none

/-- The variables of a thread that a section fills: `snapshot`, `latest` and `sock`. -/
structure Caller where
  snapshot : DashboardState
  connected : Bool
  latest : Option Json
  sock : Option ℕ

inductive ConnectorThread where
  | run
  | request (n : ℕ)
  deriving DecidableEq

/-- The sections under `_lock`: the three of `_run`, those of `snapshot` and
`_send`, and the two of `upload_latest_alert`. -/
inductive LockedSection where
  | connect (sock : ℕ)
  | handle_event (now : Bytes) (result event : Json)
  | retry
  | snapshot
  | send
  | latest_alert
  | uploaded (result : Json)

/-- The threads that come to a section. `upload_latest_alert` returns before its second section if there is no alert. -/
def enters : ConnectorThread → Caller → LockedSection → Prop
  | .run, _, .connect _ => True
  | .run, _, .handle_event _ _ _ => True
  | .run, _, .retry => True
  | .request _, _, .snapshot => True
  | .request _, _, .send => True
  | .request _, _, .latest_alert => True
  | .request _, caller, .uploaded _ => caller.latest.isSome = true
  | _, _, _ => False

namespace LockedSection

def write (f : ConnectorState → ConnectorState) (s : ConnectorState × Caller) : ConnectorState × Caller := (f s.1, s.2)

def read (f : ConnectorState → Caller → Caller) (s : ConnectorState × Caller) : ConnectorState × Caller := (s.1, f s.1 s.2)

/-- Each section by its statements. `deepcopy` copies one entry after another. -/
def body : LockedSection → Body ConnectorState Caller
  | connect sock =>
    [write fun shared => { shared with socket := some sock }, write fun shared => { shared with connected := true }]
  | handle_event now result event =>
    (handle_steps now result event).map fun step => write fun shared => { shared with state := step shared.state }
  | retry => [write fun shared => { shared with socket := none }, write fun shared => { shared with connected := false }]
  | snapshot =>
    [read fun shared caller => { caller with connected := shared.connected },
      read fun shared caller => { caller with snapshot.last_event := shared.state.last_event },
      read fun shared caller => { caller with snapshot.metrics := shared.state.metrics },
      read fun shared caller => { caller with snapshot.alerts := shared.state.alerts },
      read fun shared caller => { caller with snapshot.chat := shared.state.chat },
      read fun shared caller => { caller with snapshot.rules := shared.state.rules },
      read fun shared caller => { caller with snapshot.aws := shared.state.aws }]
  | send => [read fun shared caller => { caller with sock := shared.socket }]
  | latest_alert => [read fun shared caller => { caller with latest := shared.state.alerts.getLast? }]
  | uploaded result => [write fun shared => { shared with state.aws := result }]

/-- What a section as a whole makes of the connector. -/
def effect : LockedSection → ConnectorState → ConnectorState
  | connect sock, shared => { shared with socket := some sock, connected := true }
  | handle_event now result event, shared => { shared with state := handled now result event shared.state }
  | retry, shared => { shared with socket := none, connected := false }
  | uploaded result, shared => { shared with state.aws := result }
  | _, shared => shared

/-- What a thread has got from its section. -/
def Got (shared : ConnectorState) (caller : Caller) : LockedSection → Prop
  | snapshot => caller.snapshot = shared.state ∧ caller.connected = shared.connected
  | send => caller.sock = shared.socket
  | latest_alert => caller.latest = shared.state.alerts.getLast?
  | _ => True

end LockedSection

theorem run_writes (steps : List (DashboardState → DashboardState)) (s : ConnectorState × Caller) :
    Body.run (steps.map fun step => LockedSection.write fun shared => { shared with state := step shared.state }) s =
      ({ s.1 with state := steps.foldl (fun state step => step state) s.1.state }, s.2) := by
  induction steps generalizing s with
  | nil => rfl
  | cons step steps ih => exact ih _

theorem LockedSection.body_run (b : LockedSection) (s : ConnectorState × Caller) :
    (b.body.run s).1 = b.effect s.1 ∧ b.Got s.1 (b.body.run s).2 := by
  cases b with
  | handle_event now result event =>
    rw [body, run_writes, handle_steps_run]
    exact ⟨rfl, trivial⟩
  | snapshot => exact ⟨rfl, rfl, rfl⟩
  | send => exact ⟨rfl, rfl⟩
  | latest_alert => exact ⟨rfl, rfl⟩
  | _ => exact ⟨rfl, trivial⟩

/-- The connector after whole sections in the order in which they took the lock. -/
def replay (start : ConnectorState) (log : List (ConnectorThread × LockedSection)) : ConnectorState :=
  log.foldl (fun shared entry => entry.2.effect shared) start

/-- The runs of the threads, with the sections in the order in which they took the lock. -/
abbrev ConnectorRun (start : Threads ConnectorThread ConnectorState Caller) :
    Threads ConnectorThread ConnectorState Caller → List (ConnectorThread × LockedSection) → Prop :=
  LoggedRun start (Step LockedSection.body enters)

/-- The lists are short enough, and `connected` says whether there is a socket. -/
structure ConnectorState.Sound (shared : ConnectorState) : Prop where
  alerts : shared.state.alerts.length ≤ 50
  chat : shared.state.chat.length ≤ 80
  connected : shared.connected = shared.socket.isSome

theorem length_lastItems (n : ℕ) (items : List Json) : (lastItems n items).length ≤ n := by
  rw [lastItems, List.length_drop]
  omega

/-- `_handle_event` keeps the lists short, whatever it is called with. -/
theorem handled_short (now : Bytes) (result event : Json) (state : DashboardState)
    (short : state.alerts.length ≤ 50 ∧ state.chat.length ≤ 80) :
    (handled now result event state).alerts.length ≤ 50 ∧ (handled now result event state).chat.length ≤ 80 := by
  rw [← handle_steps_run]
  cases event with
  | obj event =>
    unfold handle_steps
    dsimp only
    split
    · cases pyGet event "metrics" (.arr []) with
      | arr items =>
        dsimp only
        cases metricsByHost items <;> exact short
      | _ => exact short
    · split
      · cases pyGet event "data" (.obj []) with
        | obj metric =>
          dsimp only
          split
          · cases hostOf (.obj metric) <;> exact short
          · exact short
        | _ => exact short
      · split
        · exact ⟨length_lastItems _ _, short.2⟩
        · split
          · exact ⟨short.1, length_lastItems _ _⟩
          · split
            · exact short
            · split
              · exact ⟨short.1, length_lastItems _ _⟩
              · exact short
  | _ => exact short

theorem LockedSection.effect_sound (b : LockedSection) {shared : ConnectorState} (sound : shared.Sound) :
    (b.effect shared).Sound := by
  cases b with
  | handle_event now result event =>
    obtain ⟨alerts, chat⟩ := handled_short now result event shared.state ⟨sound.alerts, sound.chat⟩
    exact ⟨alerts, chat, sound.connected⟩
  | connect sock => exact ⟨sound.alerts, sound.chat, rfl⟩
  | retry => exact ⟨sound.alerts, sound.chat, rfl⟩
  | uploaded result => exact ⟨sound.alerts, sound.chat, sound.connected⟩
  | _ => exact sound

section Run
variable {start threads : Threads ConnectorThread ConnectorState Caller} {log : List (ConnectorThread × LockedSection)}

theorem replay_sound (sound : start.shared.Sound) (log : List (ConnectorThread × LockedSection)) :
    (replay start.shared log).Sound := by
  induction log using List.reverseRecOn with
  | nil => exact sound
  | append_singleton log entry ih =>
    rw [replay, List.foldl_append]
    exact entry.2.effect_sound ih

/-- Whole sections replay. -/
theorem shared_of_atomic {before s : ConnectorState × (ConnectorThread → Caller)}
    (run : LoggedRun before (AtomicStep LockedSection.body enters) s log) : s.1 = replay before.1 log := by
  refine run.invariant (fun s log => s.1 = replay before.1 log) rfl ?_
  intro s after log entries _ ih one
  cases one with
  | @run i b may =>
    rw [replay, List.foldl_append]
    exact ((b.body_run _).1).trans (congrArg b.effect ih)

/-- However the statements of any number of threads interleave, a thread that is
outside of its sections has got from the last of them the state after a whole
number of sections, those that had taken the lock before: no event that is half
handled, at most 50 alerts and 80 entries of the feed, and connected exactly when
there is a socket to send on. -/
theorem sections_see_whole_events (free : start.lock = none) (sound : start.shared.Sound)
    (run : ConnectorRun start threads log) {earlier later : List (ConnectorThread × LockedSection)}
    {i : ConnectorThread} {b : LockedSection} (outside : ∀ rest, threads.lock ≠ some (i, rest))
    (whole : log = earlier ++ (i, b) :: later) (last : ∀ entry ∈ later, entry.1 ≠ i) :
    b.Got (replay start.shared earlier) (threads.own i) ∧ (replay start.shared earlier).Sound := by
  have atomic := atomic_run run
  rw [Threads.settled_of_free free] at atomic
  obtain ⟨before, reached, own⟩ := own_of_last atomic earlier i b later whole last
  rw [Threads.settled_own outside] at own
  rw [own, ← shared_of_atomic reached]
  refine ⟨(b.body_run _).2, ?_⟩
  rw [shared_of_atomic reached]
  exact replay_sound sound earlier

end Run

/-- A request that asks for the state after an alert was handled. -/
theorem sections_see_whole_events_alert : ∃ (start threads : Threads ConnectorThread ConnectorState Caller)
    (event : Json) (log : List (ConnectorThread × LockedSection)),
    LockedSection.Got (replay start.shared [(.run, .handle_event [] .null event)]) (threads.own (.request 0)) .snapshot ∧
      (threads.own (.request 0)).snapshot.alerts.length = 1 ∧ ConnectorRun start threads log := by
  let event : Json := .obj [(ascii "type", .str (ascii "alert")), (ascii "data", .obj [])]
  let start : Threads ConnectorThread ConnectorState Caller :=
    { shared := { state := { aws := .null } }, own := fun _ => ⟨{ aws := .null }, false, none, none⟩ }
  have alerted : ConnectorRun start _ [(.run, .handle_event [] .null event)] :=
    whole_section .start rfl (trivial : enters .run _ (.handle_event [] .null event))
  have run : ConnectorRun start _ [(.run, .handle_event [] .null event), (.request 0, .snapshot)] :=
    whole_section alerted rfl (trivial : enters (.request 0) _ .snapshot)
  have whole : [(.run, .handle_event [] .null event), (.request 0, .snapshot)] =
      [(ConnectorThread.run, LockedSection.handle_event [] .null event)] ++ (.request 0, .snapshot) :: [] := rfl
  exact ⟨start, _, event, _, (sections_see_whole_events rfl ⟨Nat.zero_le _, Nat.zero_le _, rfl⟩ run (by simp) whole
    (List.forall_mem_nil _)).1, rfl, run⟩

end SysNetMon
