import SysNetMon.EventLoop

/-!
The descriptors that `run` puts into the sets of `select`, against the number
that a set can hold.
-/

namespace SysNetMon
open Bytes

/-- The descriptors that an `fd_set` can hold are those below. -/
def FD_SETSIZE : ℕ := 1024

/-- The descriptors that a round passes to `FD_SET` and to `FD_ISSET`, in order. -/
def Process.indexed (platform : Platform) (listen_fd : ℕ) (process : Process) (polled : Polled) : List ℕ :=
  [listen_fd, listen_fd] ++ process.fds.flatMap (fun fd => [fd, fd]) ++
    listen_fd :: ((process.welcome listen_fd polled).sweep platform polled).tested

/-- A descriptor that the process has open: `others` are those open before `run`
that neither it nor `accept` opened. -/
def InUse (others : Finset ℕ) (listen_fd : ℕ) (process : Process) (fd : ℕ) : Prop :=
  fd ∈ others ∨ fd = listen_fd ∨ fd ∈ process.fds

/-- `accept` returns the lowest descriptor that is not in use. -/
def LowestAccept (others : Finset ℕ) (listen_fd : ℕ) (process : Process) (polled : Polled) : Prop :=
  ∀ fd peer, polled.accepted = some (fd, peer) →
    ¬ InUse others listen_fd process fd ∧ ∀ lower < fd, InUse others listen_fd process lower

/-- If the round accepts a connection, a descriptor that a set can hold is not in use. -/
def RoomToAccept (others : Finset ℕ) (listen_fd : ℕ) (process : Process) (polled : Polled) : Prop :=
  polled.newcomers listen_fd ≠ [] → ∃ fd < FD_SETSIZE, ¬ InUse others listen_fd process fd

/-- No round of the log passes a descriptor that a set cannot hold. -/
def SetsInRange (platform : Platform) (listen_fd : ℕ) (log : List (Process × Polled)) : Prop :=
  ∀ entry ∈ log, ∀ fd ∈ entry.1.indexed platform listen_fd entry.2, fd < FD_SETSIZE

section Round
variable {platform : Platform} {others : Finset ℕ} {listen_fd : ℕ} {process : Process} {polled : Polled}

/-- A round adds no descriptor but that of the connection it accepts. -/
theorem Possible.fds_subset (possible : Possible listen_fd process polled) (alive : process.ended = none) {fd : ℕ}
    (member : fd ∈ (process.iterate platform listen_fd polled).fds) :
    fd ∈ process.fds ∨ ∃ newcomer ∈ polled.newcomers listen_fd, newcomer.fd = fd := by
  obtain ⟨kept, entries, same, -, ⟨-, clients, -⟩ | ⟨clients, -⟩⟩ := possible.iterate_cases platform alive
  · rw [Process.fds, clients, List.map_append, map_fd_of_identity same, List.mem_append] at member
    exact member.imp_right List.mem_map.mp
  · rw [Process.fds, clients, List.map_append, filter_fds fun fd => !polled.fails fd, map_fd_of_identity same,
      List.mem_append] at member
    exact member.imp (fun kept => (List.mem_filter.mp kept).1) List.mem_map.mp

/-- The connection that is accepted where there is room has a descriptor in range. -/
theorem RoomToAccept.newcomer (room : RoomToAccept others listen_fd process polled)
    (lowest : LowestAccept others listen_fd process polled) {newcomer : ClientConnection}
    (member : newcomer ∈ polled.newcomers listen_fd) : newcomer.fd < FD_SETSIZE := by
  obtain ⟨free, below, unused⟩ := room (List.ne_nil_of_mem member)
  obtain ⟨peer, is⟩ := Polled.accepted_of_mem member
  by_contra above
  exact unused ((lowest _ peer is).2 free (lt_of_lt_of_le below (not_lt.mp above)))

/-- The descriptors that a round passes are those of the listening socket, of the
open connections and of the one it accepts. -/
theorem Possible.indexed_subset (possible : Possible listen_fd process polled) {fd : ℕ}
    (member : fd ∈ process.indexed platform listen_fd polled) :
    fd = listen_fd ∨ fd ∈ process.fds ∨ ∃ newcomer ∈ polled.newcomers listen_fd, newcomer.fd = fd := by
  unfold Process.indexed at member
  rcases List.mem_append.mp member with sets | tests
  · rcases List.mem_append.mp sets with listening | client
    · simp only [List.mem_cons, List.not_mem_nil, or_false, or_self] at listening
      exact Or.inl listening
    · obtain ⟨other, known, is⟩ := List.mem_flatMap.mp client
      simp only [List.mem_cons, List.not_mem_nil, or_false, or_self] at is
      exact Or.inr (Or.inl (is ▸ known))
  · rcases List.mem_cons.mp tests with listening | client
    · exact Or.inl listening
    · have known := (Swept.complete platform polled (process.welcome listen_fd polled)).known fd client
      rw [Process.fds, possible.welcome.1, List.map_append, List.mem_append] at known
      exact Or.inr (known.imp_right List.mem_map.mp)

/-- A round that comes to its end has tested the connection that it accepted. -/
theorem Possible.newcomer_indexed (possible : Possible listen_fd process polled) (alive : process.ended = none)
    (goes : (process.iterate platform listen_fd polled).ended = none) {newcomer : ClientConnection}
    (member : newcomer ∈ polled.newcomers listen_fd) : newcomer.fd ∈ process.indexed platform listen_fd polled := by
  rw [Process.iterate_ended alive] at goes
  obtain ⟨i, inside, atIndex⟩ := List.getElem_of_mem member
  have clients := possible.welcome.1
  have atIndex' : (process.welcome listen_fd polled).server.clients_[process.server.clients_.length + i]? =
      some newcomer := by
    rw [clients, getElem?_after, List.getElem?_eq_getElem inside, atIndex]
  have tested := (Swept.complete platform polled (process.welcome listen_fd polled)).tested goes _ newcomer atIndex'
    (by rw [clients, List.length_append]; omega)
  exact List.mem_append_right _ (List.mem_cons_of_mem _ tested)

end Round

section Run
variable {platform : Platform} {others : Finset ℕ} {listen_fd : ℕ} {process : Process} {log : List (Process × Polled)}

/-- The listening socket has a descriptor in range if it is used at all, and a
connection is accepted only while a descriptor in range is free. -/
structure Roomy (others : Finset ℕ) (listen_fd : ℕ) (log : List (Process × Polled)) : Prop where
  listening : log ≠ [] → listen_fd < FD_SETSIZE
  room : ∀ entry ∈ log, RoomToAccept others listen_fd entry.1 entry.2

theorem EventRun.fds_in_range (run : EventRun platform listen_fd process log)
    (lowest : ∀ entry ∈ log, LowestAccept others listen_fd entry.1 entry.2)
    (room : ∀ entry ∈ log, RoomToAccept others listen_fd entry.1 entry.2) :
    ∀ fd ∈ process.fds, fd < FD_SETSIZE := by
  induction run with
  | start => exact List.forall_mem_nil _
  | @next before after log entries _ one ih =>
    obtain ⟨alive, possible⟩ := one
    rename_i polled
    simp only [List.forall_mem_append, List.forall_mem_singleton] at lowest room
    intro fd member
    rcases possible.fds_subset alive member with known | ⟨newcomer, fresh, rfl⟩
    · exact ih lowest.1 room.1 fd known
    · exact room.2.newcomer lowest.2 fresh

theorem EventRun.setsInRange (run : EventRun platform listen_fd process log)
    (lowest : ∀ entry ∈ log, LowestAccept others listen_fd entry.1 entry.2) (roomy : Roomy others listen_fd log) :
    SetsInRange platform listen_fd log := by
  induction run with
  | start => exact List.forall_mem_nil _
  | @next before after log entries previous one ih =>
    obtain ⟨alive, possible⟩ := one
    rename_i polled
    obtain ⟨listening, room⟩ := roomy
    simp only [List.forall_mem_append, List.forall_mem_singleton] at lowest room
    have earlier := ih lowest.1 ⟨fun some => listening (by simp), room.1⟩
    simp only [SetsInRange, List.forall_mem_append, List.forall_mem_singleton]
    refine ⟨earlier, fun fd member => ?_⟩
    rcases possible.indexed_subset member with rfl | known | ⟨newcomer, fresh, rfl⟩
    · exact listening (by simp)
    · exact EventRun.fds_in_range previous lowest.1 room.1 fd known
    · exact room.2.newcomer lowest.2 fresh

theorem EventRun.roomy (run : EventRun platform listen_fd process log) (goes : process.ended = none)
    (lowest : ∀ entry ∈ log, LowestAccept others listen_fd entry.1 entry.2)
    (inRange : SetsInRange platform listen_fd log) : Roomy others listen_fd log := by
  induction run with
  | start => exact ⟨fun some => absurd rfl some, List.forall_mem_nil _⟩
  | @next before after log entries previous one ih =>
    obtain ⟨alive, possible⟩ := one
    rename_i polled
    simp only [SetsInRange, List.forall_mem_append, List.forall_mem_singleton] at lowest inRange
    refine ⟨fun _ => inRange.2 listen_fd List.mem_cons_self, ?_⟩
    simp only [List.forall_mem_append, List.forall_mem_singleton]
    refine ⟨(ih alive lowest.1 inRange.1).room, fun accepts => ?_⟩
    obtain ⟨newcomer, member⟩ := List.exists_mem_of_ne_nil _ accepts
    obtain ⟨peer, is⟩ := Polled.accepted_of_mem member
    exact ⟨newcomer.fd, inRange.2 _ (possible.newcomer_indexed alive goes member), (lowest.2 _ peer is).1⟩

end Run

/-- The sets are indexed in range in every run in which the listening socket has
a descriptor in range and connections are accepted only while there is a free
one; and in no other run, unless an exception ends it. -/
theorem sets_in_range_iff_roomy {platform : Platform} {others : Finset ℕ} {listen_fd : ℕ} {process : Process}
    {log : List (Process × Polled)} (run : EventRun platform listen_fd process log)
    (lowest : ∀ entry ∈ log, LowestAccept others listen_fd entry.1 entry.2) :
    (Roomy others listen_fd log → SetsInRange platform listen_fd log) ∧
      (process.ended = none → SetsInRange platform listen_fd log → Roomy others listen_fd log) :=
  ⟨fun roomy => EventRun.setsInRange run lowest roomy, fun goes inRange => EventRun.roomy run goes lowest inRange⟩

/-- A round in which a connection comes and no other has anything to read. -/
def arrival (now : Tm) (listen_fd fd : ℕ) : Polled where
  read_set := {listen_fd}
  error_set := ∅
  accepted := some (fd, ⟨(127, 0, 0, 1), 50000⟩)
  received _ := []
  clock _ _ _ := now

theorem sets_in_range_iff_roomy_first : ∃ process log, EventRun ⟨fun _ => false⟩ 3 process log ∧ log ≠ [] ∧
    SetsInRange ⟨fun _ => false⟩ 3 log := by
  let now : Tm := ⟨2024, 1, 2, 3, 4, 5⟩
  have possible : Possible 3 {} (arrival now 3 4) :=
    ⟨fun _ member => Or.inl (Finset.mem_singleton.mp member), fun _ member => absurd member (Finset.notMem_empty _),
      by rintro _ _ ⟨⟩; decide⟩
  have run : EventRun ⟨fun _ => false⟩ 3 _ _ := LoggedRun.start.next (.round rfl possible)
  have lowest : LowestAccept {0, 1, 2} 3 {} (arrival now 3 4) := by
    rintro _ _ ⟨⟩
    unfold InUse
    decide
  have room : RoomToAccept {0, 1, 2} 3 {} (arrival now 3 4) := fun _ => ⟨4, by decide, (lowest 4 _ rfl).1⟩
  exact ⟨_, _, run, List.cons_ne_nil _ _,
    (sets_in_range_iff_roomy run (List.forall_mem_singleton.mpr lowest)).1
      ⟨fun _ => by decide, List.forall_mem_singleton.mpr room⟩⟩

/-- A loop that finds nothing to read leaves the process as it is. -/
theorem Sweep.idle {platform : Platform} {polled : Polled} {start : Process}
    (quiet : ∀ fd ∈ start.fds, fd ∉ polled.read_set) (alive : start.ended = none) {k : ℕ}
    (inside : k ≤ start.server.clients_.length) :
    ((List.range k).foldl (Sweep.visit platform polled) { process := start }).process = start := by
  induction k with
  | zero => rfl
  | succ k ih =>
    have same := ih (Nat.le_of_succ_le inside)
    obtain ⟨client, atIndex⟩ : ∃ client, start.server.clients_[k]? = some client := ⟨_, List.getElem?_eq_getElem inside⟩
    rw [List.range_succ, List.foldl_append, List.foldl_cons, List.foldl_nil]
    rw [← same] at alive atIndex
    rw [(Sweep.visit_spec platform polled alive atIndex).2.1, same]
    exact quiet _ (List.mem_map_of_mem (List.mem_of_getElem? (by rwa [same] at atIndex)))

section Arrival
variable {platform : Platform} {process : Process} {now : Tm} {listen_fd fd : ℕ}

theorem Possible.arrival (now : Tm) (notListen : fd ≠ listen_fd) (fresh : fd ∉ process.fds) :
    Possible listen_fd process (arrival now listen_fd fd) where
  read_set _ member := Or.inl (Finset.mem_singleton.mp member)
  error_set _ member := absurd member (Finset.notMem_empty _)
  accepted other peer is := by
    cases is
    exact ⟨notListen, fresh⟩

theorem newcomers_arrival : (arrival now listen_fd fd).newcomers listen_fd =
    [{ fd := fd, peer_label := endpoint_label ⟨(127, 0, 0, 1), 50000⟩ }] :=
  if_pos (Finset.mem_singleton_self listen_fd)

/-- The connection that comes is appended, and nothing else happens. -/
theorem Process.iterate_arrival (platform : Platform) (now : Tm) (alive : process.ended = none)
    (distinct : (listen_fd :: process.fds).Nodup) (notListen : fd ≠ listen_fd) (fresh : fd ∉ process.fds) :
    (process.iterate platform listen_fd (arrival now listen_fd fd)).ended = none ∧
      (process.iterate platform listen_fd (arrival now listen_fd fd)).fds = process.fds ++ [fd] := by
  have possible := Possible.arrival now notListen fresh
  obtain ⟨clients, ended, -⟩ := possible.welcome
  obtain ⟨-, unreadable, -⟩ := possible.newcomer (newcomers_arrival ▸ List.mem_cons_self)
  have unread (other : ℕ) (known : other ∈ process.fds) : other ∉ (arrival now listen_fd fd).read_set := by
    intro member
    obtain rfl := Finset.mem_singleton.mp member
    exact (List.nodup_cons.mp distinct).1 known
  have goes : (process.iterate platform listen_fd (arrival now listen_fd fd)).ended = none := by
    rw [iterate_ended alive, sweep, Sweep.idle _ (ended.trans alive) le_rfl, ended, alive]
    intro other member
    rw [fds, clients, newcomers_arrival, List.map_append, List.mem_append] at member
    rcases member with known | new
    · exact unread other known
    · rwa [List.mem_singleton.mp new]
  have stays : process.fds.filter (fun other => !(arrival now listen_fd fd).fails other) = process.fds := by
    refine List.filter_eq_self.mpr fun other known => ?_
    have sound : other ∉ (arrival now listen_fd fd).error_set := Finset.notMem_empty other
    simp [Polled.fails, unread other known, sound]
  refine ⟨goes, ?_⟩
  obtain ⟨kept, entries, same, -, ⟨stopped, -⟩ | ⟨left, -⟩⟩ := possible.iterate_cases platform alive
  · exact absurd goes stopped
  · rw [fds, left, List.map_append, filter_fds fun other => !(arrival now listen_fd fd).fails other,
      map_fd_of_identity same, newcomers_arrival]
    exact congrArg (· ++ [fd]) stays

end Arrival

/-- Connections that come one after another and stay get the descriptors from 4 on. -/
theorem EventRun.arrivals (platform : Platform) (now : Tm) (count : ℕ) :
    ∃ process log, EventRun platform 3 process log ∧
      (∀ entry ∈ log, LowestAccept {0, 1, 2} 3 entry.1 entry.2) ∧ process.ended = none ∧
      process.fds = (List.range count).map (4 + ·) ∧
      (0 < count → ∃ entry ∈ log, 4 + (count - 1) ∈ entry.1.indexed platform 3 entry.2) := by
  induction count with
  | zero => exact ⟨{}, [], .start, List.forall_mem_nil _, rfl, rfl, fun some => absurd some (Nat.not_lt_zero 0)⟩
  | succ count ih =>
    obtain ⟨process, log, run, lowest, alive, fds, -⟩ := ih
    have distinct := EventRun.fds_nodup run
    have fresh : 4 + count ∉ process.fds := by
      rw [fds, List.mem_map]
      rintro ⟨other, below, same⟩
      exact absurd (List.mem_range.mp below) (by omega)
    have possible := Possible.arrival now (by omega : 4 + count ≠ 3) fresh
    obtain ⟨goes, fds'⟩ := process.iterate_arrival platform now alive distinct (by omega) fresh
    refine ⟨_, _, run.next (.round alive possible), ?_, goes, ?_, fun _ => ?_⟩
    · simp only [List.forall_mem_append, List.forall_mem_singleton]
      refine ⟨lowest, ?_⟩
      rintro _ _ ⟨⟩
      simp only [InUse, fds, List.mem_map, List.mem_range, Finset.mem_insert, Finset.mem_singleton]
      refine ⟨?_, fun lower below => ?_⟩
      · rintro (_ | _ | ⟨other, below, same⟩) <;> omega
      · by_cases early : lower < 4
        · omega
        · exact Or.inr (Or.inr ⟨lower - 4, by omega, by omega⟩)
    · rw [fds', fds, List.range_succ, List.map_append, List.map_singleton]
    · refine ⟨_, List.mem_append_right _ List.mem_cons_self, ?_⟩
      exact possible.newcomer_indexed alive goes (by rw [newcomers_arrival]; exact List.mem_cons_self)

/-- Enough connections that stay open: one of them has the descriptor 1024. -/
theorem many_connections_leave_range :
    ¬ ∀ platform others listen_fd process log, EventRun platform listen_fd process log →
      (∀ entry ∈ log, LowestAccept others listen_fd entry.1 entry.2) → SetsInRange platform listen_fd log := by
  intro inRange
  obtain ⟨process, log, run, lowest, -, -, last⟩ := EventRun.arrivals ⟨fun _ => false⟩ ⟨2024, 1, 2, 3, 4, 5⟩ 1021
  obtain ⟨entry, member, indexed⟩ := last (by omega)
  have bound := inRange _ _ _ _ _ run lowest entry member _ indexed
  exact absurd bound (by decide)

end SysNetMon
