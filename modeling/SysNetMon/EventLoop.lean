import Mathlib.Data.Finset.Basic
import SysNetMon.LineFraming

/-!
The rounds of `run` with the descriptor sets of `select`: which connections a
round keeps, and which it closes.
-/

namespace SysNetMon
open Bytes

/-- What the calls of one round return: the sets that `select` left, the
connection from `accept`, and what `recv` received on each descriptor, where
nothing stands for a result that is not positive. -/
structure Polled where
  read_set : Finset ℕ
  error_set : Finset ℕ
  accepted : Option (ℕ × Peer)
  received : ℕ → Bytes
  clock : ℕ → ℕ → ℕ → Tm

/-- The loop over `clients_`: the process, the positions to disconnect so far and
the descriptors that `FD_ISSET` was asked about. -/
structure Sweep where
  process : Process
  disconnect_indices : List ℕ := []
  tested : List ℕ := []

def Sweep.visit (platform : Platform) (polled : Polled) (sweep : Sweep) (index : ℕ) : Sweep :=
  if sweep.process.ended.isSome then sweep
  else
    match sweep.process.server.clients_[index]? with
    | none => { sweep with process := { sweep.process with ended := some .impossible } }
    | some client =>
      if client.fd ∈ polled.error_set then
        { sweep with
          disconnect_indices := sweep.disconnect_indices ++ [index]
          tested := sweep.tested ++ [client.fd] }
      else if client.fd ∈ polled.read_set then
        let (alive, after) :=
          sweep.process.read_client platform (polled.clock index) index (polled.received client.fd)
        { process := after
          disconnect_indices := if alive then sweep.disconnect_indices else sweep.disconnect_indices ++ [index]
          tested := sweep.tested ++ [client.fd, client.fd] }
      else { sweep with tested := sweep.tested ++ [client.fd, client.fd] }

namespace Process

def fds (process : Process) : List ℕ := process.server.clients_.map ClientConnection.fd

/-- The part of a round before the loop over `clients_`. -/
def welcome (listen_fd : ℕ) (process : Process) (polled : Polled) : Process :=
  if listen_fd ∈ polled.read_set then process.accept_connection polled.accepted else process

/-- The loop over `clients_`, which now holds the connection just accepted. -/
def sweep (platform : Platform) (process : Process) (polled : Polled) : Sweep :=
  (List.range process.server.clients_.length).foldl (Sweep.visit platform polled) { process }

/-- One round of `run` after `select` has returned. -/
def iterate (platform : Platform) (listen_fd : ℕ) (process : Process) (polled : Polled) : Process :=
  if process.ended.isSome then process
  else
    let swept := (process.welcome listen_fd polled).sweep platform polled
    if swept.process.ended.isSome then swept.process
    else swept.disconnect_indices.reverse.foldl disconnect_client swept.process

end Process

/-- What the operating system can return: `select` leaves a part of the sets it
was given, and `accept` gives a descriptor that is not open. -/
structure Possible (listen_fd : ℕ) (process : Process) (polled : Polled) : Prop where
  read_set : ∀ fd ∈ polled.read_set, fd = listen_fd ∨ fd ∈ process.fds
  error_set : ∀ fd ∈ polled.error_set, fd = listen_fd ∨ fd ∈ process.fds
  accepted : ∀ fd peer, polled.accepted = some (fd, peer) → fd ≠ listen_fd ∧ fd ∉ process.fds

/-- The runs of the loop, with the state and the results of each round. -/
inductive EventStep (platform : Platform) (listen_fd : ℕ) : Process → List (Process × Polled) → Process → Prop
  | round {process polled} : process.ended = none → Possible listen_fd process polled →
      EventStep platform listen_fd process [(process, polled)] (process.iterate platform listen_fd polled)

abbrev EventRun (platform : Platform) (listen_fd : ℕ) : Process → List (Process × Polled) → Prop :=
  LoggedRun {} (EventStep platform listen_fd)

/-- A connection that the round disconnects: one in error, or whose read fails. -/
def Polled.fails (polled : Polled) (fd : ℕ) : Bool :=
  fd ∈ polled.error_set || (fd ∈ polled.read_set && polled.received fd = [])

/-- The connection that a round accepts. -/
def Polled.newcomers (listen_fd : ℕ) (polled : Polled) : List ClientConnection :=
  if listen_fd ∈ polled.read_set then
    polled.accepted.toList.map fun accepted => { fd := accepted.1, peer_label := endpoint_label accepted.2 }
  else []

/-- What a connection keeps while it is open. -/
def ClientConnection.identity (client : ClientConnection) : ℕ × Bytes := (client.fd, client.peer_label)

def Activity.closed? : Activity → Option ℕ
  | closed fd => some fd
  | _ => none

/-- The positions of a list where a property holds. -/
def positions {α : Type} (p : α → Bool) (l : List α) : List ℕ := (List.range l.length).filter fun i => l[i]?.any p

theorem positions_concat {α : Type} (p : α → Bool) (l : List α) (x : α) :
    positions p (l ++ [x]) = positions p l ++ if p x then [l.length] else [] := by
  have same : ∀ i ∈ List.range l.length, (l ++ [x])[i]?.any p = l[i]?.any p := by
    intro i member
    rw [List.getElem?_append_left (List.mem_range.mp member)]
  rw [positions, List.length_append, List.length_singleton, List.range_succ, List.filter_append, positions,
    List.filter_congr same, List.filter_singleton, List.getElem?_concat_length, Option.any_some, Bool.cond_eq_ite]

theorem positions_map {α β : Type} (f : α → β) (p : β → Bool) (l : List α) :
    positions p (l.map f) = positions (fun x => p (f x)) l := by
  simp only [positions, List.length_map, List.getElem?_map, Option.any_map]

section Disconnect
variable {gone : ClientConnection → Bool}

/-- Disconnecting the positions of some connections from the back removes these
and no other. -/
theorem Process.disconnect_positions (clients behind : List ClientConnection) (process : Process)
    (is : process.server.clients_ = clients ++ behind) :
    (positions gone clients).reverse.foldl disconnect_client process =
      { process with
        server := { process.server with clients_ := clients.filter (fun client => !gone client) ++ behind }
        log := process.log ++ (clients.filter gone).reverse.map fun client => .closed client.fd } := by
  induction clients using List.reverseRecOn generalizing process behind with
  | nil => simp [positions, ← is]
  | append_singleton clients client ih =>
    rw [positions_concat, List.filter_append, List.filter_append, List.filter_singleton, List.filter_singleton]
    cases removed : gone client with
    | false =>
      have rest := ih (client :: behind) process (by rw [is, List.append_assoc, List.singleton_append])
      simpa [removed] using rest
    | true =>
      have first : process.disconnect_client clients.length =
          { process with
            server := { process.server with clients_ := clients ++ behind }
            log := process.log ++ [.closed client.fd] } := by
        unfold disconnect_client
        simp [MonitorServer.disconnect_client, is, List.eraseIdx_append_of_length_le]
      rw [if_pos rfl, List.reverse_append, List.reverse_singleton, List.singleton_append, List.foldl_cons, first,
        ih behind _ rfl]
      simp

end Disconnect

/-- What reading from the connection at a position changes: what is registered
for it and what waits in its buffer. It is the only one that the log speaks of. -/
structure Serves (index fd : ℕ) (before after : Process) : Prop where
  identities : after.server.clients_.map ClientConnection.identity =
    before.server.clients_.map ClientConnection.identity
  others : ∀ i, i ≠ index → after.server.clients_[i]? = before.server.clients_[i]?
  log : ∃ entries, after.log = before.log ++ entries ∧ ∀ a ∈ entries, a.fd = fd ∧ a.closed? = none

section Serve
variable {platform : Platform} {index fd : ℕ} {before middle after process : Process} {server : MonitorServer}

theorem Serves.refl : Serves index fd process process :=
  ⟨rfl, fun _ _ => rfl, [], (List.append_nil _).symm, List.forall_mem_nil _⟩

theorem Serves.trans (first : Serves index fd before middle) (second : Serves index fd middle after) :
    Serves index fd before after := by
  obtain ⟨entries, is, own⟩ := first.log
  obtain ⟨entries', is', own'⟩ := second.log
  refine ⟨second.identities.trans first.identities, fun i other => (second.others i other).trans (first.others i other),
    entries ++ entries', by rw [is', is, List.append_assoc], fun a member => ?_⟩
  rcases List.mem_append.mp member with earlier | later
  · exact own a earlier
  · exact own' a later

/-- Changing one connection in place. -/
theorem MonitorServer.modifyClient_spec (server : MonitorServer) (index : ℕ)
    {f : ClientConnection → ClientConnection} (keeps : ∀ client, (f client).identity = client.identity) :
    (server.modifyClient index f).clients_.map ClientConnection.identity =
        server.clients_.map ClientConnection.identity ∧
      ∀ i, i ≠ index → (server.modifyClient index f).clients_[i]? = server.clients_[i]? := by
  refine ⟨server.map_modifyClient index keeps, fun i other => ?_⟩
  simp [modifyClient, Ne.symm other]

/-- Handling a line keeps the identities, and all of the other connections. -/
theorem MonitorServer.handle_line_keeps {clock : ℕ → Tm} {line : Bytes} {after : MonitorServer}
    {outputs : List Output} (handled : server.handle_line platform clock index line = .ok (after, outputs)) :
    after.clients_.map ClientConnection.identity = server.clients_.map ClientConnection.identity ∧
      ∀ i, i ≠ index → after.clients_[i]? = server.clients_[i]? := by
  obtain ⟨client, -, handling⟩ := handle_line_cases handled
  cases handling with
  | register => exact server.modifyClient_spec index fun _ => rfl
  | _ => exact ⟨rfl, fun _ _ => rfl⟩

theorem Serves.setBuffer (pending : Bytes) {entries : List Activity}
    (own : ∀ a ∈ entries, a.fd = fd ∧ a.closed? = none) :
    Serves index fd process
      { process with server := process.server.setBuffer index pending, log := process.log ++ entries } := by
  obtain ⟨identities, others⟩ :=
    process.server.modifyClient_spec index (f := fun client => { client with buffer := pending }) fun _ => rfl
  exact ⟨identities, others, entries, rfl, own⟩

theorem Serves.hand (call : Call) (same : call.before = process.server) (at' : call.index = index) :
    Serves index fd process (process.hand platform fd call) := by
  have own : ∀ a ∈ [Activity.handed fd call], a.fd = fd ∧ a.closed? = none := by
    intro a member
    rw [List.mem_singleton.mp member]
    exact ⟨rfl, rfl⟩
  unfold Process.hand
  cases result : call.result platform with
  | error abort => exact ⟨rfl, fun _ _ => rfl, _, rfl, own⟩
  | ok returned =>
    rw [Call.result, same, at'] at result
    obtain ⟨identities, others⟩ := MonitorServer.handle_line_keeps result
    exact ⟨identities, others, _, rfl, own⟩

theorem Serves.take_line (clock : ℕ → Tm) (segment rest : Bytes) :
    Serves index fd process (process.take_line platform clock index fd segment rest) := by
  have erased : Serves index fd process { process with server := process.server.setBuffer index rest } := by
    have set := @Serves.setBuffer index fd process rest [] (List.forall_mem_nil _)
    rwa [List.append_nil] at set
  unfold Process.take_line
  dsimp only
  split
  · exact erased
  · exact erased.trans (.hand _ rfl rfl)

/-- The connection at a position is still there. -/
theorem Serves.same_fd (serves : Serves index fd before after) {client : ClientConnection}
    (atIndex : before.server.clients_[index]? = some client) :
    ∃ later, after.server.clients_[index]? = some later ∧ later.fd = client.fd := by
  have same : (after.server.clients_.map ClientConnection.identity)[index]? = some client.identity := by
    rw [serves.identities, List.getElem?_map, atIndex]
    rfl
  rw [List.getElem?_map] at same
  obtain ⟨later, atIndex', is⟩ := Option.map_eq_some_iff.mp same
  exact ⟨later, atIndex', congrArg Prod.fst is⟩

theorem Serves.read_loop {client : ClientConnection} {fuel : ℕ} (clock : ℕ → ℕ → Tm)
    (atIndex : process.server.clients_[index]? = some client) :
    Serves index client.fd process (Process.read_loop platform index fuel clock process) := by
  induction fuel generalizing process client clock with
  | zero => exact ⟨rfl, fun _ _ => rfl, [], (List.append_nil _).symm, List.forall_mem_nil _⟩
  | succ fuel ih =>
    rw [Process.read_loop, atIndex]
    dsimp only
    split
    · exact .refl
    · rename_i segment rest _
      have taken := @Serves.take_line platform index client.fd process (clock 0) segment rest
      split
      · exact taken
      · obtain ⟨later, atIndex', same⟩ := taken.same_fd atIndex
        have more := ih (fun k => clock (k + 1)) atIndex'
        rw [same] at more
        exact taken.trans more

theorem Serves.read_client (platform : Platform) {client : ClientConnection} (clock : ℕ → ℕ → Tm) (received : Bytes)
    (atIndex : process.server.clients_[index]? = some client) :
    Serves index client.fd process (process.read_client platform clock index received).2 ∧
      (process.read_client platform clock index received).1 = !decide (received = []) := by
  rw [Process.read_client, atIndex]
  dsimp only
  have own : ∀ a ∈ [Activity.received client.fd received], a.fd = client.fd ∧ a.closed? = none := by
    intro a member
    rw [List.mem_singleton.mp member]
    exact ⟨rfl, rfl⟩
  split
  · rename_i empty
    subst empty
    exact ⟨⟨rfl, fun _ _ => rfl, _, rfl, own⟩, rfl⟩
  · rename_i some
    have stored := @Serves.setBuffer index client.fd process (client.buffer ++ received) _ own
    obtain ⟨later, atIndex', same⟩ := stored.same_fd atIndex
    have rest := @Serves.read_loop platform index _ later ((client.buffer ++ received).length + 1) clock atIndex'
    rw [same] at rest
    exact ⟨stored.trans rest, by simp [some]⟩

end Serve

/-- One position of the loop over `clients_`. -/
theorem Sweep.visit_spec (platform : Platform) (polled : Polled) {sweep : Sweep} {index : ℕ} {client : ClientConnection}
    (goes : sweep.process.ended = none) (atIndex : sweep.process.server.clients_[index]? = some client) :
    Serves index client.fd sweep.process (sweep.visit platform polled index).process ∧
      (client.fd ∉ polled.read_set → (sweep.visit platform polled index).process = sweep.process) ∧
      (sweep.visit platform polled index).disconnect_indices =
        sweep.disconnect_indices ++ (if polled.fails client.fd then [index] else []) ∧
      ∃ again, (∀ fd ∈ again, fd = client.fd) ∧
        (sweep.visit platform polled index).tested = sweep.tested ++ client.fd :: again := by
  unfold Sweep.visit
  rw [goes, atIndex]
  simp only [Option.isSome_none, Bool.false_eq_true, if_false]
  split
  · rename_i inError
    have fails : polled.fails client.fd = true := by simp [Polled.fails, inError]
    exact ⟨.refl, fun _ => rfl, by rw [fails, if_pos rfl], [], List.forall_mem_nil _, rfl⟩
  · rename_i sound
    split
    · rename_i readable
      obtain ⟨serves, alive⟩ :=
        Serves.read_client platform (polled.clock index) (polled.received client.fd) atIndex
      have fails : polled.fails client.fd = decide (polled.received client.fd = []) := by
        simp [Polled.fails, sound, readable]
      refine ⟨serves, fun absent => absurd readable absent, ?_, [client.fd], by simp, rfl⟩
      rw [fails, alive]
      by_cases empty : polled.received client.fd = [] <;> simp [empty]
    · rename_i unreadable
      have fails : polled.fails client.fd = false := by simp [Polled.fails, sound, unreadable]
      exact ⟨.refl, fun _ => rfl, by simp [fails], [client.fd], by simp, rfl⟩

/-- The loop over `clients_` up to position `k`, from the process `start`. -/
structure Swept (polled : Polled) (start : Process) (k : ℕ) (sweep : Sweep) : Prop where
  identities : sweep.process.server.clients_.map ClientConnection.identity =
    start.server.clients_.map ClientConnection.identity
  unread : ∀ (i : ℕ) (client : ClientConnection), start.server.clients_[i]? = some client →
    client.fd ∉ polled.read_set ∨ k ≤ i → sweep.process.server.clients_[i]? = some client
  gone : sweep.process.ended = none → sweep.disconnect_indices =
    (List.range k).filter fun i => start.server.clients_[i]?.any fun client => polled.fails client.fd
  log : ∃ entries, sweep.process.log = start.log ++ entries ∧ ∀ a ∈ entries, a.fd ∈ polled.read_set ∧ a.closed? = none
  known : ∀ fd ∈ sweep.tested, fd ∈ start.fds
  tested : sweep.process.ended = none → ∀ (i : ℕ) (client : ClientConnection),
    start.server.clients_[i]? = some client → i < k → client.fd ∈ sweep.tested

section Sweeps
variable {platform : Platform} {polled : Polled} {start : Process} {k : ℕ} {sweep : Sweep}

theorem Swept.initial (polled : Polled) (start : Process) : Swept polled start 0 { process := start } where
  identities := rfl
  unread _ _ at' _ := at'
  gone _ := rfl
  log := ⟨[], (List.append_nil _).symm, List.forall_mem_nil _⟩
  known := List.forall_mem_nil _
  tested _ _ _ _ below := absurd below (Nat.not_lt_zero _)

theorem Swept.visit (swept : Swept polled start k sweep) (inside : k < start.server.clients_.length) :
    Swept polled start (k + 1) (sweep.visit platform polled k) := by
  by_cases goes : sweep.process.ended = none
  · obtain ⟨first, atStart⟩ : ∃ first, start.server.clients_[k]? = some first := ⟨_, List.getElem?_eq_getElem inside⟩
    obtain ⟨client, atIndex, same⟩ :
        ∃ client, sweep.process.server.clients_[k]? = some client ∧ client.fd = first.fd := by
      have is := congrArg (fun l => l[k]?) swept.identities
      simp only [List.getElem?_map, atStart, Option.map_some] at is
      obtain ⟨client, atIndex, is⟩ := Option.map_eq_some_iff.mp is
      exact ⟨client, atIndex, congrArg Prod.fst is⟩
    obtain ⟨serves, unread, disconnect, again, own, tested⟩ := Sweep.visit_spec platform polled goes atIndex
    rw [same] at serves unread disconnect own tested
    constructor
    case identities => exact serves.identities.trans swept.identities
    case unread =>
      intro i other at' apart
      have before : sweep.process.server.clients_[i]? = some other :=
        swept.unread i other at' (apart.imp_right Nat.le_of_succ_le)
      by_cases here : i = k
      · subst here
        obtain rfl : first = other := Option.some.inj (atStart.symm.trans at')
        rcases apart with unreadable | passed
        · rwa [unread unreadable]
        · exact absurd passed (Nat.not_succ_le_self i)
      · rwa [serves.others i here]
    case gone =>
      intro _
      rw [disconnect, swept.gone goes, List.range_succ, List.filter_append, List.filter_singleton, atStart,
        Option.any_some, Bool.cond_eq_ite]
    case log =>
      obtain ⟨entries, is, own⟩ := swept.log
      by_cases readable : first.fd ∈ polled.read_set
      · obtain ⟨more, is', own'⟩ := serves.log
        refine ⟨entries ++ more, by rw [is', is, List.append_assoc], fun a member => ?_⟩
        rcases List.mem_append.mp member with earlier | later
        · exact own a earlier
        · exact ⟨by rwa [(own' a later).1], (own' a later).2⟩
      · exact ⟨entries, by rw [unread readable, is], own⟩
    case known =>
      intro fd member
      rw [tested] at member
      rcases List.mem_append.mp member with earlier | now
      · exact swept.known fd earlier
      · have is : fd = first.fd := by
          rcases List.mem_cons.mp now with is | more
          · exact is
          · exact own fd more
        rw [is]
        exact List.mem_map_of_mem (List.mem_of_getElem? atStart)
    case tested =>
      intro _ i other at' below
      rw [tested]
      rcases Nat.lt_succ_iff_lt_or_eq.mp below with earlier | rfl
      · exact List.mem_append_left _ (swept.tested goes i other at' earlier)
      · obtain rfl : first = other := Option.some.inj (atStart.symm.trans at')
        exact List.mem_append_right _ List.mem_cons_self
  · have stays : sweep.visit platform polled k = sweep := if_pos (by rwa [Option.isSome_iff_ne_none])
    rw [stays]
    exact ⟨swept.identities, fun i other at' apart => swept.unread i other at' (apart.imp_right Nat.le_of_succ_le),
      fun alive => absurd alive goes, swept.log, swept.known, fun alive => absurd alive goes⟩

theorem Swept.range (platform : Platform) (polled : Polled) (start : Process) {k : ℕ}
    (inside : k ≤ start.server.clients_.length) :
    Swept polled start k ((List.range k).foldl (Sweep.visit platform polled) { process := start }) := by
  induction k with
  | zero => exact .initial polled start
  | succ k ih =>
    rw [List.range_succ, List.foldl_append]
    exact (ih (Nat.le_of_succ_le inside)).visit inside

theorem Swept.complete (platform : Platform) (polled : Polled) (start : Process) :
    Swept polled start start.server.clients_.length (start.sweep platform polled) :=
  .range platform polled start le_rfl

end Sweeps

/-- What a round that comes to its end has done: which connections are left, and
which descriptors were closed. -/
structure RoundOutcome (listen_fd : ℕ) (polled : Polled) (process after : Process) : Prop where
  clients : ∃ kept, after.server.clients_ = kept ++ polled.newcomers listen_fd ∧
    kept.map ClientConnection.identity =
      (process.server.clients_.filter fun client => !polled.fails client.fd).map ClientConnection.identity
  closed : ∃ entries, after.log = process.log ++ entries ∧
    entries.filterMap Activity.closed? = (process.fds.filter polled.fails).reverse ∧
    (process.fds.Nodup → ∀ fd, (entries.filterMap Activity.closed?).count fd =
      if fd ∈ process.fds ∧ polled.fails fd = true then 1 else 0) ∧
    ∀ newcomer ∈ polled.newcomers listen_fd, ∀ chunk, .received newcomer.fd chunk ∉ entries

theorem getElem?_after {α : Type} (l m : List α) (i : ℕ) : (l ++ m)[l.length + i]? = m[i]? := by
  rw [List.getElem?_append_right (Nat.le_add_right _ _), Nat.add_sub_cancel_left]

section Round
variable {platform : Platform} {listen_fd : ℕ} {process : Process} {polled : Polled}

theorem Polled.accepted_of_mem {newcomer : ClientConnection} (member : newcomer ∈ polled.newcomers listen_fd) :
    ∃ peer, polled.accepted = some (newcomer.fd, peer) := by
  unfold newcomers at member
  split at member
  · obtain ⟨⟨fd, peer⟩, is, rfl⟩ := List.mem_map.mp member
    exact ⟨peer, Option.mem_toList.mp is⟩
  · cases member

/-- The connection that a round accepts is in none of its sets. -/
theorem Possible.newcomer (possible : Possible listen_fd process polled) {newcomer : ClientConnection}
    (member : newcomer ∈ polled.newcomers listen_fd) :
    newcomer.fd ∉ process.fds ∧ newcomer.fd ∉ polled.read_set ∧ polled.fails newcomer.fd = false := by
  obtain ⟨peer, is⟩ := Polled.accepted_of_mem member
  obtain ⟨notListen, fresh⟩ := possible.accepted _ peer is
  have unreadable : newcomer.fd ∉ polled.read_set := fun readable =>
    (possible.read_set _ readable).elim notListen fresh
  have sound : newcomer.fd ∉ polled.error_set := fun inError => (possible.error_set _ inError).elim notListen fresh
  exact ⟨fresh, unreadable, by simp [Polled.fails, unreadable, sound]⟩

/-- The part of a round before the loop over `clients_`. -/
theorem Possible.welcome (possible : Possible listen_fd process polled) :
    (process.welcome listen_fd polled).server.clients_ = process.server.clients_ ++ polled.newcomers listen_fd ∧
      (process.welcome listen_fd polled).ended = process.ended ∧
      ∃ entries, (process.welcome listen_fd polled).log = process.log ++ entries ∧
        ∀ a ∈ entries, a.closed? = none ∧ ∀ fd chunk, a ≠ .received fd chunk := by
  unfold Process.welcome Polled.newcomers
  split
  · cases is : polled.accepted with
    | none => exact ⟨(List.append_nil _).symm, rfl, [], (List.append_nil _).symm, List.forall_mem_nil _⟩
    | some accepted =>
      obtain ⟨fd, peer⟩ := accepted
      have fresh := (possible.accepted fd peer is).2
      rw [Process.fds] at fresh
      unfold Process.accept_connection
      dsimp only
      rw [if_neg fresh]
      refine ⟨rfl, rfl, _, rfl, fun a member => ?_⟩
      rw [List.mem_singleton.mp member]
      exact ⟨rfl, fun _ _ same => nomatch same⟩
  · exact ⟨(List.append_nil _).symm, rfl, [], (List.append_nil _).symm, List.forall_mem_nil _⟩

/-- The state in which the loop over `clients_` ends. -/
theorem Possible.swept (platform : Platform) (possible : Possible listen_fd process polled) :
    ∃ kept, ((process.welcome listen_fd polled).sweep platform polled).process.server.clients_ =
        kept ++ polled.newcomers listen_fd ∧
      kept.map ClientConnection.identity = process.server.clients_.map ClientConnection.identity := by
  obtain ⟨clients, -, -⟩ := possible.welcome
  have swept := Swept.complete platform polled (process.welcome listen_fd polled)
  have identities := swept.identities.trans (by rw [clients, List.map_append])
  obtain ⟨kept, rest, shape, same, same'⟩ := List.map_eq_append_iff.mp identities
  have length : rest.length = (polled.newcomers listen_fd).length := by simpa using congrArg List.length same'
  have lengthKept : kept.length = process.server.clients_.length := by simpa using congrArg List.length same
  have fresh : rest = polled.newcomers listen_fd := by
    refine List.ext_getElem? fun i => ?_
    cases at' : (polled.newcomers listen_fd)[i]? with
    | none =>
      rw [List.getElem?_eq_none_iff] at at' ⊢
      omega
    | some newcomer =>
      obtain ⟨-, unreadable, -⟩ := possible.newcomer (List.mem_of_getElem? at')
      have still := swept.unread (kept.length + i) newcomer (by rw [clients, lengthKept, getElem?_after, at'])
        (Or.inl unreadable)
      rwa [shape, getElem?_after] at still
  exact ⟨kept, by rw [shape, fresh], same⟩

theorem map_fd_of_identity {clients clients' : List ClientConnection}
    (same : clients.map ClientConnection.identity = clients'.map ClientConnection.identity) :
    clients.map ClientConnection.fd = clients'.map ClientConnection.fd := by
  have first := congrArg (List.map Prod.fst) same
  rwa [List.map_map, List.map_map] at first

/-- The positions that the loop over `clients_` has collected at its end. -/
theorem Process.disconnect_indices_eq
    (goes : ((process.welcome listen_fd polled).sweep platform polled).process.ended = none) :
    ((process.welcome listen_fd polled).sweep platform polled).disconnect_indices =
      positions (fun client => polled.fails client.fd)
        ((process.welcome listen_fd polled).sweep platform polled).process.server.clients_ := by
  have swept := Swept.complete platform polled (process.welcome listen_fd polled)
  rw [swept.gone goes, ← positions_map, map_fd_of_identity swept.identities, positions_map]
  rfl

/-- Only the loop over `clients_` can end the process. -/
theorem Process.iterate_ended (alive : process.ended = none) :
    (process.iterate platform listen_fd polled).ended =
      ((process.welcome listen_fd polled).sweep platform polled).process.ended := by
  unfold iterate
  rw [alive]
  dsimp only [Option.isSome_none]
  rw [if_neg Bool.false_ne_true]
  split
  · rfl
  · rename_i goes
    rw [disconnect_indices_eq (Option.not_isSome_iff_eq_none.mp goes),
      disconnect_positions _ [] _ (List.append_nil _).symm]

theorem filter_fds (p : ℕ → Bool) (clients : List ClientConnection) :
    (clients.filter fun client => p client.fd).map ClientConnection.fd =
      (clients.map ClientConnection.fd).filter p := by
  rw [List.filter_map]
  rfl

theorem filter_identities (p : ℕ → Bool) (clients : List ClientConnection) :
    (clients.filter fun client => p client.fd).map ClientConnection.identity =
      (clients.map ClientConnection.identity).filter fun identity => p identity.1 := by
  rw [List.filter_map]
  rfl

/-- A round is ended by an exception in the loop over `clients_`, or disconnects
the connections that fail. -/
theorem Possible.iterate_cases (platform : Platform) (possible : Possible listen_fd process polled)
    (alive : process.ended = none) :
    ∃ kept entries, kept.map ClientConnection.identity = process.server.clients_.map ClientConnection.identity ∧
      (∀ a ∈ entries, a.closed? = none ∧ ∀ newcomer ∈ polled.newcomers listen_fd, ∀ chunk,
        a ≠ .received newcomer.fd chunk) ∧
      ((process.iterate platform listen_fd polled).ended ≠ none ∧
          (process.iterate platform listen_fd polled).server.clients_ = kept ++ polled.newcomers listen_fd ∧
          (process.iterate platform listen_fd polled).log = process.log ++ entries ∨
        (process.iterate platform listen_fd polled).server.clients_ =
            kept.filter (fun client => !polled.fails client.fd) ++ polled.newcomers listen_fd ∧
          (process.iterate platform listen_fd polled).log =
            process.log ++ (entries ++ (process.fds.filter polled.fails).reverse.map .closed)) := by
  obtain ⟨kept, clients, same⟩ := possible.swept platform
  obtain ⟨-, -, greeting, greeted, quiet⟩ := possible.welcome
  obtain ⟨entries, logged, own⟩ := (Swept.complete platform polled (process.welcome listen_fd polled)).log
  have newcomersStay : (polled.newcomers listen_fd).filter (fun client => !polled.fails client.fd) =
      polled.newcomers listen_fd := List.filter_eq_self.mpr fun newcomer member => by
    rw [(possible.newcomer member).2.2]
    rfl
  have noneFails : (polled.newcomers listen_fd).filter (fun client => polled.fails client.fd) = [] :=
    List.filter_eq_nil_iff.mpr fun newcomer member => by
      rw [(possible.newcomer member).2.2]
      exact Bool.false_ne_true
  refine ⟨kept, greeting ++ entries, same, fun a member => ?_, ?_⟩
  · rcases List.mem_append.mp member with first | later
    · exact ⟨(quiet a first).1, fun newcomer _ chunk => (quiet a first).2 newcomer.fd chunk⟩
    · refine ⟨(own a later).2, ?_⟩
      rintro newcomer fresh chunk rfl
      exact (possible.newcomer fresh).2.1 (own _ later).1
  · unfold Process.iterate
    rw [alive]
    dsimp only [Option.isSome_none]
    rw [if_neg Bool.false_ne_true]
    by_cases goes : ((process.welcome listen_fd polled).sweep platform polled).process.ended = none
    · have removed : (kept.filter fun client => polled.fails client.fd).reverse.map
          (fun client => Activity.closed client.fd) = (process.fds.filter polled.fails).reverse.map .closed := by
        rw [Process.fds, ← map_fd_of_identity same, ← filter_fds, ← List.map_reverse, List.map_map]
        rfl
      rw [goes, Option.isSome_none, if_neg Bool.false_ne_true, Process.disconnect_indices_eq goes,
        Process.disconnect_positions _ [] _ (List.append_nil _).symm, clients, List.filter_append, List.filter_append,
        newcomersStay, noneFails, List.append_nil, List.append_nil]
      refine Or.inr ⟨rfl, ?_⟩
      rw [logged, greeted, removed, List.append_assoc, List.append_assoc, List.append_assoc]
    · rw [if_pos (Option.isSome_iff_ne_none.mpr goes)]
      exact Or.inl ⟨goes, clients, by rw [logged, greeted, List.append_assoc]⟩

theorem Possible.outcome (possible : Possible listen_fd process polled) (alive : process.ended = none)
    (goes : (process.iterate platform listen_fd polled).ended = none) :
    RoundOutcome listen_fd polled process (process.iterate platform listen_fd polled) := by
  obtain ⟨kept, entries, same, quiet, ⟨stopped, -⟩ | ⟨clients, logged⟩⟩ := possible.iterate_cases platform alive
  · exact absurd goes stopped
  have closings : (entries ++ (process.fds.filter polled.fails).reverse.map Activity.closed).filterMap
      Activity.closed? = (process.fds.filter polled.fails).reverse := by
    rw [List.filterMap_append, List.filterMap_eq_nil_iff.mpr fun a member => (quiet a member).1, List.nil_append,
      List.filterMap_map]
    exact List.filterMap_some
  refine ⟨⟨_, clients, ?_⟩, _, logged, closings, fun distinct fd => ?_, fun newcomer member chunk received => ?_⟩
  · rw [filter_identities fun fd => !polled.fails fd, same, ← filter_identities fun fd => !polled.fails fd]
  · rw [closings, List.count_reverse, (distinct.filter _).count]
    simp only [List.mem_filter]
  · rcases List.mem_append.mp received with before | after
    · exact (quiet _ before).2 newcomer member chunk rfl
    · obtain ⟨fd, -, is⟩ := List.mem_map.mp after
      cases is

/-- A round keeps the open descriptors apart. -/
theorem Possible.fds_nodup (possible : Possible listen_fd process polled) (alive : process.ended = none)
    (distinct : (listen_fd :: process.fds).Nodup) :
    (listen_fd :: (process.iterate platform listen_fd polled).fds).Nodup := by
  have whole : (listen_fd :: (process.fds ++ (polled.newcomers listen_fd).map ClientConnection.fd)).Nodup := by
    unfold Polled.newcomers
    split
    · cases is : polled.accepted with
      | none => simpa using distinct
      | some accepted =>
        obtain ⟨notListen, fresh⟩ := possible.accepted accepted.1 accepted.2 is
        obtain ⟨apart, nodup⟩ := List.nodup_cons.mp distinct
        have behind : (process.fds ++ [accepted.1]).Nodup :=
          nodup.append (List.nodup_singleton _) (List.disjoint_singleton.mpr fresh)
        refine List.nodup_cons.mpr ⟨?_, behind⟩
        rw [List.mem_append, not_or]
        exact ⟨apart, fun same => notListen (List.mem_singleton.mp same).symm⟩
    · simpa using distinct
  obtain ⟨kept, entries, same, -, ⟨-, clients, -⟩ | ⟨clients, -⟩⟩ := possible.iterate_cases platform alive
  · rwa [Process.fds, clients, List.map_append, map_fd_of_identity same]
  · rw [Process.fds, clients, List.map_append, filter_fds fun fd => !polled.fails fd, map_fd_of_identity same]
    exact whole.sublist ((List.filter_sublist.append_right _).cons_cons _)

/-- The open descriptors are distinct along a run. -/
theorem EventRun.fds_nodup {log : List (Process × Polled)} (run : EventRun platform listen_fd process log) :
    (listen_fd :: process.fds).Nodup := by
  refine run.state_invariant (fun process => (listen_fd :: process.fds).Nodup) (List.nodup_singleton listen_fd) ?_
  rintro before after entries distinct ⟨alive, possible⟩
  exact possible.fds_nodup alive distinct

end Round

/-- A round takes out of `clients_` the connections that fail and no other, and
closes each of their descriptors once; along a run the open descriptors are
distinct, so that the sets of each round name every connection for itself. -/
theorem rounds_remove_failing_clients (platform : Platform) (listen_fd : ℕ) :
    (∀ process polled, Possible listen_fd process polled → process.ended = none →
      (process.iterate platform listen_fd polled).ended = none →
        RoundOutcome listen_fd polled process (process.iterate platform listen_fd polled)) ∧
    ∀ process log, EventRun platform listen_fd process log → (listen_fd :: process.fds).Nodup := by
  exact ⟨fun process polled possible alive goes => possible.outcome alive goes, fun process log run =>
    EventRun.fds_nodup run⟩

theorem rounds_remove_failing_clients_two_of_three :
    let client (fd : ℕ) : ClientConnection := { fd, peer_label := ascii "p" }
    let process : Process := { server := { clients_ := [client 4, client 5, client 6] } }
    let polled : Polled := ⟨{3, 5, 6}, {4}, some (7, ⟨(127, 0, 0, 1), 9⟩), fun fd => if fd = 6 then [10] else [],
      fun _ _ _ => ⟨2024, 1, 2, 3, 4, 5⟩⟩
    RoundOutcome 3 polled process (process.iterate ⟨fun _ => false⟩ 3 polled) := by
  intro client process polled
  refine (rounds_remove_failing_clients ⟨fun _ => false⟩ 3).1 process polled ⟨?_, ?_, ?_⟩ rfl ?_
  · decide
  · decide
  · rintro _ _ ⟨⟩
    decide
  · decide +kernel

/-- The rounds of the process that the results of the calls make. -/
def Polled.round (listen_fd : ℕ) (polled : Polled) : Round where
  accepted := if listen_fd ∈ polled.read_set then polled.accepted else none
  ready fd :=
    if fd ∈ polled.error_set then .failed
    else if fd ∈ polled.read_set then .readable (polled.received fd)
    else .idle
  clock := polled.clock

section Refine
variable {platform : Platform} {listen_fd : ℕ} {process : Process} {polled : Polled}

theorem Sweep.visit_eq (sweep : Sweep) (index : ℕ) :
    Process.visit platform (polled.round listen_fd) (sweep.process, sweep.disconnect_indices) index =
      ((sweep.visit platform polled index).process, (sweep.visit platform polled index).disconnect_indices) := by
  unfold Process.visit Sweep.visit Polled.round
  dsimp only
  split
  · rfl
  · cases sweep.process.server.clients_[index]? with
    | none => rfl
    | some client =>
      by_cases inError : client.fd ∈ polled.error_set
      · simp [inError]
      · by_cases readable : client.fd ∈ polled.read_set <;> simp [inError, readable]

theorem Sweep.foldl_eq (indices : List ℕ) (sweep : Sweep) :
    indices.foldl (Process.visit platform (polled.round listen_fd)) (sweep.process, sweep.disconnect_indices) =
      ((indices.foldl (Sweep.visit platform polled) sweep).process,
        (indices.foldl (Sweep.visit platform polled) sweep).disconnect_indices) := by
  induction indices generalizing sweep with
  | nil => rfl
  | cons index indices ih => rw [List.foldl_cons, List.foldl_cons, visit_eq, ih]

/-- At the position of the connection just accepted nothing happens. -/
theorem Possible.past_newcomer (platform : Platform) (possible : Possible listen_fd process polled) {sweep : Sweep}
    {j : ℕ} (inside : j < (polled.newcomers listen_fd).length)
    (swept : Swept polled (process.welcome listen_fd polled) (process.server.clients_.length + j) sweep) :
    (sweep.visit platform polled (process.server.clients_.length + j)).process = sweep.process ∧
      (sweep.visit platform polled (process.server.clients_.length + j)).disconnect_indices =
        sweep.disconnect_indices := by
  by_cases goes : sweep.process.ended = none
  · obtain ⟨-, unreadable, passes⟩ := possible.newcomer (List.getElem_mem inside)
    have atIndex := swept.unread (process.server.clients_.length + j) (polled.newcomers listen_fd)[j]
      (by rw [possible.welcome.1, getElem?_after, List.getElem?_eq_getElem inside]) (Or.inr le_rfl)
    obtain ⟨-, stays, disconnect, -⟩ := Sweep.visit_spec platform polled goes atIndex
    rw [passes, if_neg Bool.false_ne_true, List.append_nil] at disconnect
    exact ⟨stays unreadable, disconnect⟩
  · have stays : sweep.visit platform polled (process.server.clients_.length + j) = sweep :=
      if_pos (by rwa [Option.isSome_iff_ne_none])
    rw [stays]
    exact ⟨rfl, rfl⟩

/-- The loop over `clients_` does the same whether or not it comes to the
connection just accepted. -/
theorem Possible.sweep_eq (platform : Platform) (possible : Possible listen_fd process polled) {j : ℕ}
    (inside : j ≤ (polled.newcomers listen_fd).length) :
    (((List.range (process.server.clients_.length + j)).foldl (Sweep.visit platform polled)
          { process := process.welcome listen_fd polled }).process,
        ((List.range (process.server.clients_.length + j)).foldl (Sweep.visit platform polled)
          { process := process.welcome listen_fd polled }).disconnect_indices) =
      (List.range process.server.clients_.length).foldl (Process.visit platform (polled.round listen_fd))
        (process.welcome listen_fd polled, []) := by
  induction j with
  | zero => exact (Sweep.foldl_eq _ { process := process.welcome listen_fd polled }).symm
  | succ j ih =>
    have room : process.server.clients_.length + j ≤ (process.welcome listen_fd polled).server.clients_.length := by
      rw [possible.welcome.1, List.length_append]
      omega
    obtain ⟨stays, disconnect⟩ := possible.past_newcomer platform inside (.range platform polled _ room)
    rw [← Nat.add_assoc, List.range_succ, List.foldl_append, List.foldl_cons, List.foldl_nil, stays, disconnect]
    exact ih (Nat.le_of_succ_le inside)

theorem Possible.iterate_eq (platform : Platform) (possible : Possible listen_fd process polled) :
    process.iterate platform listen_fd polled = process.round platform (polled.round listen_fd) := by
  have greeted : process.accept_connection (polled.round listen_fd).accepted = process.welcome listen_fd polled := by
    unfold Process.welcome Polled.round
    dsimp only
    split <;> rfl
  have length : (process.welcome listen_fd polled).server.clients_.length =
      process.server.clients_.length + (polled.newcomers listen_fd).length := by
    rw [possible.welcome.1, List.length_append]
  unfold Process.iterate Process.round
  rw [greeted]
  dsimp only
  rw [← possible.sweep_eq platform le_rfl, ← length]
  rfl

end Refine

end SysNetMon
