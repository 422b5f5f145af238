import Mathlib.Logic.Relation
import SysNetMon.EventLoop

/-!
The functions of the process, taken apart into the elementary steps that they
are made of: what every step keeps, every run keeps.
-/

namespace SysNetMon
open Bytes Framing Relation

/-- The elementary steps. `admits` are the descriptors that `accept` may return. -/
inductive ProcessStep (platform : Platform) (admits : ℕ → Prop) : Process → Process → Prop
  | accept {process : Process} {fd : ℕ} {peer : Peer} : admits fd → fd ∉ process.fds →
      ProcessStep platform admits process
        { process with server := process.server.accept_connection fd peer, log := process.log ++ [.accepted fd] }
  | receive {process : Process} {index : ℕ} {client : ClientConnection} {chunk : Bytes} :
      process.server.clients_[index]? = some client →
      ProcessStep platform admits process
        { process with
          server := process.server.setBuffer index (client.buffer ++ chunk)
          log := process.log ++ [.received client.fd chunk] }
  | erase {process : Process} {index : ℕ} {client : ClientConnection} {segment rest : Bytes} :
      process.server.clients_[index]? = some client → cut newline client.buffer = some (segment, rest) →
      ProcessStep platform admits process { process with server := process.server.setBuffer index rest }
  | hand {process : Process} {index : ℕ} {client : ClientConnection} {line : Bytes} (clock : ℕ → Tm) :
      process.server.clients_[index]? = some client →
      ProcessStep platform admits process (process.hand platform client.fd ⟨process.server, clock, index, line⟩)
  | close {process : Process} {index : ℕ} {client : ClientConnection} :
      process.server.clients_[index]? = some client →
      ProcessStep platform admits process (process.disconnect_client index)
  | abort {process : Process} : ProcessStep platform admits process { process with ended := some .impossible }

/-- Steps one after another. -/
abbrev ProcessSteps (platform : Platform) (admits : ℕ → Prop) : Process → Process → Prop :=
  ReflTransGen (ProcessStep platform admits)

section Steps
variable {platform : Platform} {admits : ℕ → Prop} {process : Process} {index : ℕ} {client : ClientConnection}

theorem Process.hand_log (process : Process) (fd : ℕ) (call : Call) :
    (process.hand platform fd call).log = process.log ++ [.handed fd call] := by
  unfold hand
  dsimp only
  split <;> rfl

theorem Process.take_line_steps (atIndex : process.server.clients_[index]? = some client) {segment rest : Bytes}
    (first : cut newline client.buffer = some (segment, rest)) (clock : ℕ → Tm) :
    ProcessSteps platform admits process (process.take_line platform clock index client.fd segment rest) := by
  have erased : ProcessSteps platform admits process
      { process with server := process.server.setBuffer index rest } := .single (.erase atIndex first)
  unfold take_line
  dsimp only
  split
  · exact erased
  · have atIndex' := MonitorServer.setBuffer_at atIndex rest
    exact erased.tail (@ProcessStep.hand platform admits _ index { client with buffer := rest } _ clock atIndex')

theorem Process.read_loop_steps {fuel : ℕ} (clock : ℕ → ℕ → Tm) :
    ProcessSteps platform admits process (Process.read_loop platform index fuel clock process) := by
  induction fuel generalizing process clock with
  | zero => exact .single .abort
  | succ fuel ih =>
    rw [read_loop]
    cases atIndex : process.server.clients_[index]? with
    | none => exact .single .abort
    | some client =>
      dsimp only
      cases first : cut newline client.buffer with
      | none => exact .refl
      | some pieces =>
        obtain ⟨segment, rest⟩ := pieces
        have taken := @take_line_steps platform admits _ _ _ atIndex _ _ first (clock 0)
        dsimp only
        split
        · exact taken
        · exact taken.trans (ih _)

theorem Process.read_client_steps (clock : ℕ → ℕ → Tm) (received : Bytes) :
    ProcessSteps platform admits process (process.read_client platform clock index received).2 := by
  unfold read_client
  cases atIndex : process.server.clients_[index]? with
  | none => exact .single .abort
  | some client =>
    dsimp only
    split
    · have nothing := @ProcessStep.receive platform admits process index client [] atIndex
      rw [List.append_nil, MonitorServer.setBuffer_self atIndex] at nothing
      exact .single nothing
    · exact (ReflTransGen.single (.receive atIndex)).trans (read_loop_steps _)

theorem Process.accept_connection_steps {accepted : Option (ℕ × Peer)}
    (admitted : ∀ fd peer, accepted = some (fd, peer) → admits fd) :
    ProcessSteps platform admits process (process.accept_connection accepted) := by
  cases accepted with
  | none => exact .refl
  | some accepted =>
    unfold accept_connection
    dsimp only
    split
    · exact .refl
    · rename_i fresh
      exact .single (.accept (admitted _ _ rfl) fresh)

theorem Process.visit_steps (round : Round) (state : Process × List ℕ) (index : ℕ) :
    ProcessSteps platform admits state.1 (Process.visit platform round state index).1 := by
  unfold visit
  split
  · exact .refl
  · split
    · exact .single .abort
    · split
      · exact .refl
      · exact .refl
      · exact read_client_steps _ _

theorem Process.visit_all_steps (round : Round) (indices : List ℕ) (state : Process × List ℕ) :
    ProcessSteps platform admits state.1 (indices.foldl (Process.visit platform round) state).1 := by
  induction indices generalizing state with
  | nil => exact .refl
  | cons index indices ih => exact (visit_steps round state index).trans (ih _)

theorem Process.disconnect_steps (index : ℕ) :
    ProcessSteps platform admits process (process.disconnect_client index) := by
  cases atIndex : process.server.clients_[index]? with
  | none =>
    rw [disconnect_client, atIndex]
    exact .single .abort
  | some client => exact .single (.close atIndex)

theorem Process.disconnect_all_steps (indices : List ℕ) :
    ProcessSteps platform admits process (indices.foldl disconnect_client process) := by
  induction indices generalizing process with
  | nil => exact .refl
  | cons index indices ih => exact (disconnect_steps index).trans ih

/-- A round is made of steps, and all of them after the first accept nothing. -/
theorem Process.round_after_accept (round : Round) (alive : process.ended = none) :
    ProcessSteps platform admits (process.accept_connection round.accepted) (process.round platform round) := by
  have read := @visit_all_steps platform admits round
    (List.range process.server.clients_.length) (process.accept_connection round.accepted, [])
  unfold Process.round
  rw [if_neg (by simp [alive])]
  dsimp only
  split
  · exact read
  · exact read.trans (disconnect_all_steps _)

theorem Process.round_steps {round : Round} (admitted : ∀ fd peer, round.accepted = some (fd, peer) → admits fd) :
    ProcessSteps platform admits process (process.round platform round) := by
  cases alive : process.ended with
  | none => exact (accept_connection_steps admitted).trans (round_after_accept round alive)
  | some abort =>
    rw [Process.round, if_pos (by simp [alive])]

theorem Process.run_steps (platform : Platform) (rounds : List Round) :
    ProcessSteps platform (fun _ => True) {} (run platform rounds) := by
  induction rounds using List.reverseRecOn with
  | nil => exact .refl
  | append_singleton rounds round ih =>
    rw [run, List.foldl_append]
    exact ih.trans (round_steps fun _ _ _ => trivial)

/-- In the loop over `select`, `accept` returns other descriptors than the listening one. -/
theorem Possible.steps {listen_fd : ℕ} {polled : Polled} (possible : Possible listen_fd process polled)
    (platform : Platform) :
    ProcessSteps platform (fun fd => fd ≠ listen_fd) process (process.iterate platform listen_fd polled) := by
  rw [possible.iterate_eq platform]
  refine Process.round_steps fun fd peer accepted => ?_
  rw [Polled.round, Option.ite_none_right_eq_some] at accepted
  exact (possible.accepted fd peer accepted.2).1

/-- What holds at the start and is kept by every step holds of all that the steps lead to. -/
theorem ProcessSteps.invariant {start : Process} (inv : Process → Prop) (initial : inv start)
    (kept : ∀ {before after}, inv before → ProcessStep platform admits before after → inv after)
    (steps : ProcessSteps platform admits start process) : inv process := by
  induction steps with
  | refl => exact initial
  | tail _ one ih => exact kept ih one

end Steps

end SysNetMon
