import Mathlib.Data.Finset.Option
import SysNetMon.Descriptors
import SysNetMon.ProcessSteps

/-!
The server from `start` to the end of `main`: the descriptors that it opens, uses
and closes.
-/

namespace SysNetMon
open Bytes

/-- The descriptors that an output is written to. -/
def Output.targets : Output → List ℕ
  | send_line fd _ => [fd]
  | broadcast fds _ => fds

/-- What an item of the process's log is to the descriptors. -/
def Activity.calls (platform : Platform) : Activity → List (Descriptors.Call ℕ)
  | accepted fd => [.opens fd]
  | received fd _ => [.uses fd]
  | handed _ call =>
    match call.result platform with
    | .ok (_, outputs) => (outputs.flatMap Output.targets).map .uses
    | .error _ => []
  | closed fd => [.closes fd]

/-- The calls of one round: `select` on all that is open, `accept` whether or not it
fails, and what the round adds to the process's log. -/
def Polled.calls (platform : Platform) (listen_fd : ℕ) (process : Process) (polled : Polled) :
    List (Descriptors.Call ℕ) :=
  (listen_fd :: process.fds).map .uses ++ (if listen_fd ∈ polled.read_set then [.uses listen_fd] else []) ++
    ((process.iterate platform listen_fd polled).log.drop process.log.length).flatMap (Activity.calls platform)

/-- The results of `socket`, `bind` and `listen`. -/
structure Started where
  socket : Option ℕ
  bound : Bool
  listening : Bool

/-- `MonitorServer::start`: the `listen_fd_` that it leaves, and its calls. -/
def MonitorServer.start (started : Started) : Option ℕ × List (Descriptors.Call ℕ) :=
  match started.socket with
  | none => (none, [])
  | some fd =>
    if started.bound then
      if started.listening then (some fd, [.opens fd, .uses fd, .uses fd, .uses fd])
      else (none, [.opens fd, .uses fd, .uses fd, .uses fd, .closes fd])
    else (none, [.opens fd, .uses fd, .uses fd, .closes fd])

def shutdown_all (listen_fd : ℕ) (process : Process) : List (Descriptors.Call ℕ) :=
  process.fds.map .closes ++ [.closes listen_fd]

/-- The calls of `main`, where it returns: the server does not start, or it
serves any number of rounds and shuts down. -/
inductive ServerLife (platform : Platform) : List (Descriptors.Call ℕ) → Prop
  | refused {started} : (MonitorServer.start started).1 = none → ServerLife platform (MonitorServer.start started).2
  | served {started listen_fd process log} : (MonitorServer.start started).1 = some listen_fd →
      EventRun platform listen_fd process log → process.ended = none →
      ServerLife platform ((MonitorServer.start started).2 ++
        log.flatMap (fun round => round.2.calls platform listen_fd round.1) ++ shutdown_all listen_fd process)

/-- From one state of the process to another: the open descriptors are those of the
listening socket and of the connections, all different, and what was logged between
them leads from the ones to the others. -/
structure InService (platform : Platform) (listen_fd : ℕ) (before process : Process) : Prop where
  distinct : (listen_fd :: process.fds).Nodup
  order : ∃ entries, process.log = before.log ++ entries ∧ Descriptors.InOrder (insert listen_fd before.fds.toFinset)
    (entries.flatMap (Activity.calls platform)) (insert listen_fd process.fds.toFinset)

section Handling
variable {platform : Platform} {server after : MonitorServer} {clock : ℕ → Tm} {index : ℕ} {client : ClientConnection}
  {line : Bytes} {outputs : List Output}

theorem MonitorServer.dashboards_subset (server : MonitorServer) :
    ∀ fd ∈ server.dashboards, fd ∈ server.clients_.map ClientConnection.fd := fun _ member =>
  (List.filter_sublist.map ClientConnection.fd).subset member

/-- Handling a line writes to open connections only. -/
theorem Handling.targets_open (handling : Handling platform server clock index client line after outputs)
    (own : client.fd ∈ server.clients_.map ClientConnection.fd) :
    ∀ output ∈ outputs, ∀ fd ∈ output.targets, fd ∈ server.clients_.map ClientConnection.fd := by
  have single (event : ServerEvent) : ∀ fd ∈ (Output.send_line client.fd event).targets,
      fd ∈ server.clients_.map ClientConnection.fd := List.forall_mem_singleton.mpr own
  have all (event : ServerEvent) : ∀ fd ∈ (server.broadcast_to_dashboards event).targets,
      fd ∈ server.clients_.map ClientConnection.fd := server.dashboards_subset
  cases handling with
  | register =>
    rw [MonitorServer.register]
    refine List.forall_mem_cons.mpr ⟨single _, ?_⟩
    split
    · exact List.forall_mem_cons.mpr ⟨single _, List.forall_mem_singleton.mpr (single _)⟩
    · exact List.forall_mem_nil _
  | store =>
    rw [MonitorServer.store]
    refine List.forall_mem_cons.mpr ⟨all _, fun output member => ?_⟩
    obtain ⟨alert, -, rfl⟩ := List.mem_map.mp member
    exact all _
  | addRule =>
    exact List.forall_mem_cons.mpr ⟨all _, List.forall_mem_cons.mpr ⟨all _, List.forall_mem_singleton.mpr (single _)⟩⟩
  | chat => exact List.forall_mem_singleton.mpr (all _)
  | listRules => exact List.forall_mem_singleton.mpr (single _)
  | countHosts => exact List.forall_mem_singleton.mpr (single _)
  | refuse => exact List.forall_mem_singleton.mpr (single _)

end Handling

section Service
variable {platform : Platform} {listen_fd : ℕ} {before process after : Process}

theorem fds_setBuffer (server : MonitorServer) (index : ℕ) (pending : Bytes) :
    (server.setBuffer index pending).clients_.map ClientConnection.fd = server.clients_.map ClientConnection.fd :=
  server.map_modifyClient index fun _ => rfl

theorem mem_fds {index : ℕ} {client : ClientConnection} (atIndex : process.server.clients_[index]? = some client) :
    client.fd ∈ process.fds := List.mem_map_of_mem (List.mem_of_getElem? atIndex)

/-- What is done next, in order, is in order after all that was done. -/
theorem InService.next (service : InService platform listen_fd before process)
    (distinct : (listen_fd :: after.fds).Nodup) {entries : List Activity} (logged : after.log = process.log ++ entries)
    (order : Descriptors.InOrder (insert listen_fd process.fds.toFinset) (entries.flatMap (Activity.calls platform))
      (insert listen_fd after.fds.toFinset)) :
    InService platform listen_fd before after := by
  obtain ⟨earlier, since, inOrder⟩ := service.order
  refine ⟨distinct, earlier ++ entries, by rw [logged, since, List.append_assoc], ?_⟩
  rw [List.flatMap_append]
  exact inOrder.append order

/-- Where the connections stay, what is done with them stays in order. -/
theorem InService.same (service : InService platform listen_fd before process) (same : after.fds = process.fds)
    {entries : List Activity} (logged : after.log = process.log ++ entries)
    (own : ∀ call ∈ entries.flatMap (Activity.calls platform), ∃ fd ∈ process.fds, call = .uses fd) :
    InService platform listen_fd before after := by
  refine service.next (by rw [same]; exact service.distinct) logged ?_
  rw [same]
  refine .all_used fun call member => ?_
  obtain ⟨fd, known, is⟩ := own call member
  exact ⟨fd, Finset.mem_insert_of_mem (List.mem_toFinset.mpr known), is⟩

/-- One elementary step keeps the descriptors in order. -/
theorem InService.step (service : InService platform listen_fd before process)
    (one : ProcessStep platform (fun fd => fd ≠ listen_fd) process after) :
    InService platform listen_fd before after := by
  cases one with
  | @accept fd peer other fresh =>
    have fds : (process.server.accept_connection fd peer).clients_.map ClientConnection.fd = process.fds ++ [fd] := by
      simp [MonitorServer.accept_connection, Process.fds]
    have absent : fd ∉ insert listen_fd process.fds.toFinset := by simp [other, fresh]
    obtain ⟨apart, nodup⟩ := List.nodup_cons.mp service.distinct
    refine service.next ?_ rfl ?_
    · rw [Process.fds, fds, List.nodup_cons, List.mem_append, not_or]
      exact ⟨⟨apart, by simp [Ne.symm other]⟩,
        nodup.append (List.nodup_singleton fd) (List.disjoint_singleton.mpr fresh)⟩
    · have whole : insert listen_fd (process.fds ++ [fd]).toFinset = insert fd (insert listen_fd process.fds.toFinset) := by
        ext other
        simp only [Finset.mem_insert, List.mem_toFinset, List.mem_append, List.mem_singleton]
        tauto
      change Descriptors.InOrder (insert listen_fd process.fds.toFinset) [.opens fd] (insert listen_fd
        ((process.server.accept_connection fd peer).clients_.map ClientConnection.fd).toFinset)
      rw [fds, whole]
      exact .opened absent
  | receive atIndex =>
    refine service.same (fds_setBuffer _ _ _) rfl fun call member => ⟨_, mem_fds atIndex, ?_⟩
    exact List.mem_singleton.mp member
  | erase atIndex first =>
    exact service.same (fds_setBuffer _ _ _) (List.append_nil _).symm (List.forall_mem_nil _)
  | @hand index client line clock atIndex =>
    unfold Process.hand
    dsimp only
    cases result : (Call.mk process.server clock index line).result platform with
    | error abort =>
      refine service.same rfl rfl fun call member => ?_
      rw [List.flatMap_singleton, Activity.calls, result] at member
      cases member
    | ok handled =>
      obtain ⟨server, outputs⟩ := handled
      obtain ⟨identities, -⟩ := MonitorServer.handle_line_keeps result
      obtain ⟨other, atIndex', handling⟩ := MonitorServer.handle_line_cases result
      have own := handling.targets_open (List.mem_map_of_mem (List.mem_of_getElem? atIndex'))
      refine service.same (map_fd_of_identity identities) rfl fun call member => ?_
      rw [List.flatMap_singleton, Activity.calls, result] at member
      obtain ⟨fd, target, rfl⟩ := List.mem_map.mp member
      obtain ⟨output, inOutputs, is⟩ := List.mem_flatMap.mp target
      exact ⟨fd, own output inOutputs fd is, rfl⟩
  | @close index client atIndex =>
    obtain ⟨apart, nodup⟩ := List.nodup_cons.mp service.distinct
    obtain ⟨inside, is⟩ : ∃ inside : index < process.fds.length, process.fds[index] = client.fd := by
      rw [← List.getElem?_eq_some_iff, Process.fds, List.getElem?_map, atIndex]
      rfl
    have fds : (process.disconnect_client index).fds = process.fds.erase client.fd := by
      rw [← is, nodup.erase_getElem index inside, Process.disconnect_client, atIndex]
      exact (List.eraseIdx_map ..).symm
    have logged : (process.disconnect_client index).log = process.log ++ [.closed client.fd] := by
      rw [Process.disconnect_client, atIndex]
    have whole : insert listen_fd (process.fds.erase client.fd).toFinset =
        (insert listen_fd process.fds.toFinset).erase client.fd := by
      have other : listen_fd ≠ client.fd := fun same => apart (same ▸ mem_fds atIndex)
      ext fd
      simp only [Finset.mem_insert, Finset.mem_erase, List.mem_toFinset, nodup.mem_erase_iff]
      constructor
      · rintro (rfl | both)
        · exact ⟨other, Or.inl rfl⟩
        · exact ⟨both.1, Or.inr both.2⟩
      · rintro ⟨notThis, known⟩
        exact known.imp_right fun known => ⟨notThis, known⟩
    refine service.next ?_ logged ?_
    · rw [fds]
      exact service.distinct.sublist (List.erase_sublist.cons_cons _)
    · rw [fds, whole]
      exact .closed (Finset.mem_insert_of_mem (List.mem_toFinset.mpr (mem_fds atIndex)))
  | abort => exact service.same rfl (List.append_nil _).symm (List.forall_mem_nil _)

/-- One round keeps the descriptors in order. -/
theorem Possible.in_order {polled : Polled} (possible : Possible listen_fd process polled)
    (distinct : (listen_fd :: process.fds).Nodup) :
    (listen_fd :: (process.iterate platform listen_fd polled).fds).Nodup ∧
      Descriptors.InOrder (insert listen_fd process.fds.toFinset) (polled.calls platform listen_fd process)
        (insert listen_fd (process.iterate platform listen_fd polled).fds.toFinset) := by
  have start : InService platform listen_fd process process := ⟨distinct, [], (List.append_nil _).symm, .nil⟩
  have service : InService platform listen_fd process (process.iterate platform listen_fd polled) :=
    ProcessSteps.invariant (InService platform listen_fd process) start InService.step (possible.steps platform)
  obtain ⟨entries, logged, order⟩ := service.order
  have selected : Descriptors.InOrder (insert listen_fd process.fds.toFinset) ((listen_fd :: process.fds).map .uses)
      (insert listen_fd process.fds.toFinset) := by
    refine .all_used fun call member => ?_
    obtain ⟨fd, known, rfl⟩ := List.mem_map.mp member
    exact ⟨fd, by simpa using known, rfl⟩
  have accepted : Descriptors.InOrder (insert listen_fd process.fds.toFinset)
      (if listen_fd ∈ polled.read_set then [.uses listen_fd] else []) (insert listen_fd process.fds.toFinset) := by
    split
    · exact .used (Finset.mem_insert_self _ _)
    · exact .nil
  refine ⟨service.distinct, ?_⟩
  rw [Polled.calls, logged, List.drop_left]
  exact (selected.append accepted).append order

/-- All rounds do. -/
theorem EventRun.in_order {log : List (Process × Polled)} (run : EventRun platform listen_fd process log) :
    (listen_fd :: process.fds).Nodup ∧ Descriptors.InOrder {listen_fd}
      (log.flatMap fun round => round.2.calls platform listen_fd round.1) (insert listen_fd process.fds.toFinset) := by
  induction run with
  | start => exact ⟨List.nodup_singleton _, by simpa [Process.fds] using .nil⟩
  | next _ one ih =>
    obtain ⟨_, possible⟩ := one
    obtain ⟨distinct, order⟩ := possible.in_order ih.1
    refine ⟨distinct, ?_⟩
    rw [List.flatMap_append, List.flatMap_singleton]
    exact ih.2.append order

/-- `shutdown_all` closes all that is open, each once. -/
theorem shutdown_in_order (distinct : (listen_fd :: process.fds).Nodup) :
    Descriptors.InOrder (insert listen_fd process.fds.toFinset) (shutdown_all listen_fd process) ∅ := by
  obtain ⟨apart, nodup⟩ := List.nodup_cons.mp distinct
  have clients := Descriptors.InOrder.all_closed (s := insert listen_fd process.fds.toFinset) nodup fun fd member =>
    Finset.mem_insert_of_mem (List.mem_toFinset.mpr member)
  rw [Finset.insert_sdiff_of_notMem _ (by rwa [List.mem_toFinset]), sdiff_self] at clients
  have listening := Descriptors.InOrder.closed (Finset.mem_insert_self listen_fd (∅ : Finset ℕ))
  rw [Finset.erase_insert (Finset.notMem_empty listen_fd)] at listening
  exact clients.append listening

theorem start_in_order (started : Started) :
    Descriptors.InOrder ∅ (MonitorServer.start started).2 (MonitorServer.start started).1.toFinset := by
  obtain ⟨socket, bound, listening⟩ := started
  cases socket with
  | none => exact .nil
  | some fd =>
    have failing (n : ℕ) : Descriptors.InOrder ∅ (.opens fd :: (List.replicate n (.uses fd) ++ [.closes fd])) ∅ :=
      .bracket (Finset.notMem_empty fd) fun call member => (List.mem_replicate.mp member).2
    cases bound with
    | false => exact failing 2
    | true =>
      cases listening with
      | false => exact failing 3
      | true =>
        have own : ∀ call ∈ [Descriptors.Call.uses fd, .uses fd, .uses fd], ∃ other ∈ ({fd} : Finset ℕ),
            call = .uses other := by simp
        exact .opens (Finset.notMem_empty fd) (.all_used own)

/-- However the server starts, whoever connects and whatever arrives: where `main`
returns, every descriptor was opened while it was not open, used and written to
only while it was, and closed as often as it was opened. -/
theorem server_descriptors_in_order {calls : List (Descriptors.Call ℕ)} (life : ServerLife platform calls) :
    Descriptors.InOrder ∅ calls ∅ ∧ ∀ fd, calls.count (.opens fd) = calls.count (.closes fd) := by
  have order : Descriptors.InOrder ∅ calls ∅ := by
    cases life with
    | @refused started failed =>
      have order := start_in_order started
      rwa [failed] at order
    | @served started listen_fd process log listens run returned =>
      have order := start_in_order started
      rw [listens] at order
      obtain ⟨distinct, served⟩ := EventRun.in_order run
      exact (order.append served).append (shutdown_in_order distinct)
  refine ⟨order, fun fd => ?_⟩
  simpa using order.balance fd

/-- A server that accepts one connection, reads its registration, answers it with
three lines, meets its end and is stopped. -/
theorem server_descriptors_in_order_one_dashboard : ∃ calls : List (Descriptors.Call ℕ),
    calls.count (.opens 4) = 1 ∧ calls.count (.uses 4) = 7 ∧ calls.count (.closes 4) = 1 ∧
      Descriptors.InOrder ∅ calls ∅ := by
  let platform : Platform := ⟨fun _ => false⟩
  let clock : ℕ → ℕ → ℕ → Tm := fun _ _ _ => ⟨2024, 1, 2, 3, 4, 5⟩
  let accepting : Polled := ⟨{3}, ∅, some (4, ⟨(127, 0, 0, 1), 9⟩), fun _ => [], clock⟩
  let reading : Polled := ⟨{4}, ∅, none,
    fun _ => ascii "\x7b\"type\":\"register\",\"role\":\"dashboard\"\x7d" ++ [newline], clock⟩
  let ending : Polled := ⟨{4}, ∅, none, fun _ => [], clock⟩
  let first := Process.iterate platform 3 {} accepting
  let second := first.iterate platform 3 reading
  have possible : Possible 3 {} accepting := ⟨by decide, by decide, by rintro _ _ ⟨⟩; decide⟩
  have possible' : Possible 3 first reading := ⟨by decide +kernel, by decide, by rintro _ _ ⟨⟩⟩
  have possible'' : Possible 3 second ending := ⟨by decide +kernel, by decide, by rintro _ _ ⟨⟩⟩
  have accepted : EventRun platform 3 first _ := LoggedRun.start.next (.round rfl possible)
  have registered : EventRun platform 3 second _ := accepted.next (.round (by decide +kernel) possible')
  have ended := registered.next (.round (by decide +kernel) possible'')
  have life := @ServerLife.served platform ⟨some 3, true, true⟩ _ _ _ rfl ended (by decide +kernel)
  exact ⟨_, by decide +kernel, by decide +kernel, by decide +kernel, (server_descriptors_in_order life).1⟩

end Service

end SysNetMon
