import SysNetMon.Chat
import SysNetMon.Interleaving
import SysNetMon.Transition

/-!
Calls of `send_command` and `send_chat` that run at the same time on one
connector, each writing its line with `sendall`.
-/

namespace SysNetMon
open Bytes Framing Interleaving KeySearch PyStr

/-- A call of `send_command` or of `send_chat`. -/
inductive UserMessage where
  | command (text : PyStr)
  | chat (sender text : PyStr)

def UserMessage.fields : UserMessage → List (String × PyStr)
  | command text => send_command text
  | chat sender text => send_chat sender text

def UserMessage.raw (message : UserMessage) : Bytes := SysNetMon.raw message.fields

/-- Where a call of `_send` stands: before it takes the lock, within it, in
`sendall` with these bytes still to go, back, or out by `RuntimeError`. -/
inductive SendPhase where
  | start
  | locked
  | sending (rest : Bytes)
  | returned
  | raised
  deriving DecidableEq

/-- What `sendall` still has to send. -/
def SendPhase.rest? : SendPhase → Option Bytes
  | sending rest => some rest
  | _ => none

theorem SendPhase.eq_of_rest? {phase : SendPhase} {rest : Bytes} (sending : phase.rest? = some rest) :
    phase = .sending rest := by
  cases phase with
  | sending other =>
    cases sending
    rfl
  | _ => cases sending

structure SendCall where
  message : UserMessage
  phase : SendPhase := .start

/-- The connector as far as `_send` goes. `lock` says who holds `_lock`: the call
at a position, or `none` for another thread; `connected` whether `_socket` is set. -/
structure MonitorConnector where
  lock : Option (Option ℕ) := none
  connected : Bool := true
  calls : List SendCall

def MonitorConnector.setPhase (connector : MonitorConnector) (i : ℕ) (call : SendCall) (phase : SendPhase) :
    MonitorConnector :=
  { connector with calls := connector.calls.set i { call with phase } }

/-- The steps of the calls, in any order, with the bytes that they put on the
socket. A `send` within `sendall` takes any part of the rest that is not empty. -/
inductive SendStep : MonitorConnector → List (ℕ × Bytes) → MonitorConnector → Prop
  | acquire {connector i call} : connector.calls[i]? = some call → call.phase = .start → connector.lock = none →
      SendStep connector [] { connector.setPhase i call .locked with lock := some (some i) }
  | release {connector i call} : connector.calls[i]? = some call → call.phase = .locked →
      SendStep connector []
        { connector.setPhase i call (if connector.connected then .sending call.message.raw else .raised) with
          lock := none }
  | send {connector i call rest n} : connector.calls[i]? = some call → call.phase = .sending rest → 0 < n →
      n ≤ rest.length → SendStep connector [(i, rest.take n)]
        (connector.setPhase i call (if n = rest.length then .returned else .sending (rest.drop n)))
  | other_acquire {connector} : connector.lock = none → SendStep connector [] { connector with lock := some none }
  | other_release {connector} : connector.lock = some none → SendStep connector [] { connector with lock := none }

/-- The runs of concurrent calls with these messages. -/
abbrev SendRun (messages : List UserMessage) : MonitorConnector → List (ℕ × Bytes) → Prop :=
  LoggedRun { calls := messages.map fun message => { message } } SendStep

/-- The bytes of a call that are not on the socket. -/
def SendCall.unsent (call : SendCall) : Bytes :=
  match call.phase with
  | .sending rest => rest
  | .returned => []
  | _ => call.message.raw

def MonitorConnector.Finished (connector : MonitorConnector) : Prop :=
  ∀ call ∈ connector.calls, call.phase = .returned

/-- What each call has written and what it has not make up its line. -/
structure Accounted (messages : List UserMessage) (connector : MonitorConnector) (log : List (ℕ × Bytes)) : Prop where
  same : connector.calls.map SendCall.message = messages
  pieces : ∀ p ∈ log, p.1 < messages.length ∧ p.2 ≠ []
  lines : ∀ i call, connector.calls[i]? = some call → share i (letters log) ++ call.unsent = call.message.raw

section Run
variable {messages : List UserMessage} {connector : MonitorConnector} {log : List (ℕ × Bytes)}

/-- A call moves on and writes what its unsent bytes begin with. -/
theorem Accounted.setPhase (accounted : Accounted messages connector log) {i : ℕ} {call : SendCall} (phase : SendPhase)
    (entries : List (ℕ × Bytes)) (atIndex : connector.calls[i]? = some call)
    (own : ∀ p ∈ entries, p.1 = i ∧ p.2 ≠ [])
    (moves : entries.flatMap Prod.snd ++ SendCall.unsent { call with phase } = call.unsent) :
    Accounted messages (connector.setPhase i call phase) (log ++ entries) := by
  have shares (j : ℕ) : share j (letters (log ++ entries)) = share j (letters log) ++ share j (letters entries) := by
    rw [letters, List.flatMap_append, share_append]
    rfl
  obtain ⟨bound, isCall⟩ := List.getElem?_eq_some_iff.mp atIndex
  have inside : i < messages.length := by
    rw [← accounted.same, List.length_map]
    exact bound
  refine ⟨?_, fun p member => ?_, fun j other atJ => ?_⟩
  · rw [← accounted.same, MonitorConnector.setPhase, List.map_set]
    refine List.ext_getElem? fun j => ?_
    rw [List.getElem?_set]
    split
    · rename_i here
      subst here
      simp [bound, isCall]
    · rfl
  · rcases List.mem_append.mp member with old | new
    · exact accounted.pieces p old
    · exact ⟨(own p new).1 ▸ inside, (own p new).2⟩
  · rw [shares, @share_letters _ _ _ entries]
    simp only [MonitorConnector.setPhase, List.getElem?_set] at atJ
    split at atJ
    · rename_i here
      subst here
      cases atJ
      rw [List.filter_eq_self.mpr fun p member => decide_eq_true (own p member).1, List.append_assoc, moves]
      exact accounted.lines i call atIndex
    · rename_i elsewhere
      have none : entries.filter (fun p => p.1 = j) = [] :=
        List.filter_eq_nil_iff.mpr fun p member is => elsewhere ((own p member).1.symm.trans (of_decide_eq_true is))
      rw [none, List.flatMap_nil, List.append_nil]
      exact accounted.lines j other atJ

theorem SendRun.accounted (run : SendRun messages connector log) : Accounted messages connector log := by
  refine run.invariant (Accounted messages) ⟨by simp [Function.comp_def], by simp, ?_⟩ ?_
  · intro i call atIndex
    obtain ⟨message, -, rfl⟩ := Option.map_eq_some_iff.mp (List.getElem?_map .. ▸ atIndex)
    rfl
  intro connector after log entries _ accounted one
  cases one with
  | @acquire i call atIndex start _ =>
    obtain ⟨same, pieces, lines⟩ :=
      accounted.setPhase .locked [] atIndex (by simp) (by simp [SendCall.unsent, start])
    exact ⟨same, pieces, lines⟩
  | @release i call atIndex locked =>
    obtain ⟨same, pieces, lines⟩ :=
      accounted.setPhase (if connector.connected then .sending call.message.raw else .raised) [] atIndex (by simp)
        (by split <;> simp [SendCall.unsent, locked])
    exact ⟨same, pieces, lines⟩
  | @send i call rest n atIndex sending positive bound =>
    refine accounted.setPhase _ _ atIndex (fun p member => ?_) ?_
    · rw [List.mem_singleton.mp member]
      refine ⟨rfl, ?_⟩
      rw [Ne, List.take_eq_nil_iff, not_or]
      exact ⟨positive.ne', List.length_pos_iff.mp (by omega)⟩
    · split
      · rename_i all
        simp [SendCall.unsent, sending, all]
      · simp [SendCall.unsent, sending]
  | other_acquire =>
    rw [List.append_nil]
    exact ⟨accounted.same, accounted.pieces, accounted.lines⟩
  | other_release =>
    rw [List.append_nil]
    exact ⟨accounted.same, accounted.pieces, accounted.lines⟩

end Run

/-- How the line of every message begins, from the brace to the letter `t` of `type`. -/
def opening : Bytes := [123, quote, 116]

section Opening
variable {gap tail : Bytes}

theorem opening_of_ne {ch : UInt8} (other : ch ≠ 123) (inside : opening <:+: ch :: tail) : opening <:+: tail := by
  rcases List.infix_cons_iff.mp inside with first | later
  · exact absurd (List.cons_prefix_cons.mp first).1.symm other
  · exact later

theorem opening_of_not_mem {s : Bytes} (absent : 123 ∉ s) (inside : opening <:+: s ++ tail) : opening <:+: tail := by
  induction s with
  | nil => exact inside
  | cons ch s ih =>
    rw [List.mem_cons, not_or] at absent
    exact ih absent.2 (opening_of_ne (Ne.symm absent.1) inside)

/-- A brace within a string is no opening: a quote after it ends the string. -/
theorem not_opening_of_escaped {e : Bytes} (escaped : Escaped e) (closes : Closes tail) :
    ¬ opening <+: 123 :: (e ++ quote :: tail) := by
  intro first
  have rest := (List.cons_prefix_cons.mp first).2
  cases escaped with
  | nil =>
    obtain ⟨ch, later, rfl, close⟩ := closes
    have letter := (List.cons_prefix_cons.mp (List.cons_prefix_cons.mp rest).2).1
    rcases close with rfl | rfl <;> exact absurd letter (by decide)
  | plain notQuote _ _ => exact absurd (List.cons_prefix_cons.mp rest).1.symm notQuote
  | pair _ => exact absurd (List.cons_prefix_cons.mp rest).1 (by decide)

theorem opening_of_escaped {e : Bytes} (escaped : Escaped e) (closes : Closes tail)
    (inside : opening <:+: e ++ quote :: tail) : opening <:+: tail := by
  have skip {ch : UInt8} {s : Bytes} (inner : Escaped s) (here : opening <:+: ch :: (s ++ quote :: tail)) :
      opening <:+: s ++ quote :: tail := by
    rcases List.infix_cons_iff.mp here with first | later
    · obtain rfl : ch = 123 := (List.cons_prefix_cons.mp first).1.symm
      exact absurd first (not_opening_of_escaped inner closes)
    · exact later
  induction escaped with
  | nil => exact opening_of_ne (by decide) inside
  | plain _ _ inner ih => exact ih (skip inner inside)
  | pair inner ih => exact ih (skip inner (opening_of_ne (by decide) inside))

/-- The fields of an object, from the first one on, hold no opening. -/
theorem not_opening_fields (blank : 123 ∉ gap) (fields : List (Bytes × Bytes))
    (strings : ∀ f ∈ fields, 123 ∉ f.1 ∧ ∃ e, Escaped e ∧ f.2 = quote :: (e ++ [quote])) :
    ¬ opening <:+: closing gap fields ++ [newline] := by
  induction fields with
  | nil =>
    change ¬ opening <:+: [125, newline]
    decide
  | cons f fields ih =>
    obtain ⟨name, e, escaped, value⟩ := strings f List.mem_cons_self
    have closes : Closes (closing gap fields ++ [newline]) := by
      obtain ⟨ch, rest, shape, close⟩ := closes_closing gap fields
      exact ⟨ch, rest ++ [newline], by rw [shape]; rfl, close⟩
    have text : closing gap (f :: fields) ++ [newline] =
        (comma :: (gap ++ quote :: (f.1 ++ quote :: colon :: (gap ++ [quote])))) ++
          (e ++ quote :: (closing gap fields ++ [newline])) := by
      simp [closing, field, value]
    intro inside
    rw [text] at inside
    have absent : (123 : UInt8) ∉ comma :: (gap ++ quote :: (f.1 ++ quote :: colon :: (gap ++ [quote]))) := by
      simp only [List.mem_cons, List.mem_append, List.not_mem_nil, or_false, not_or]
      exact ⟨by decide, blank, by decide, name, by decide, by decide, blank, by decide⟩
    exact ih (fun g member => strings g (List.mem_cons_of_mem f member))
      (opening_of_escaped escaped closes (opening_of_not_mem absent inside))

end Opening

theorem UserMessage.names (message : UserMessage) : ∀ f ∈ message.fields, 123 ∉ ascii f.1 ∧ Printable (ascii f.1) := by
  cases message with
  | command text =>
    simp only [fields, send_command, List.forall_mem_cons]
    exact ⟨by decide, by decide, List.forall_mem_nil _⟩
  | chat sender text =>
    simp only [fields, send_chat, List.forall_mem_cons]
    exact ⟨by decide, by decide, by decide, List.forall_mem_nil _⟩

theorem UserMessage.type_first (message : UserMessage) : ∃ type fields, message.fields = ("type", type) :: fields := by
  cases message with
  | command text => exact ⟨_, _, rfl⟩
  | chat sender text => exact ⟨_, _, rfl⟩

theorem UserMessage.raw_opening (message : UserMessage) :
    ∃ rest, message.raw = 123 :: rest ∧ opening <+: message.raw ∧ ¬ opening <:+: rest := by
  obtain ⟨type, fields, shape⟩ := message.type_first
  have text : message.raw =
      123 :: (field [32] (written ("type", type)) ++ (closing [32] (fields.map written) ++ [newline])) := by
    rw [raw, SysNetMon.raw, dumps_eq, shape, List.map_cons, objectText, List.cons_append, List.append_assoc]
  refine ⟨_, text, ?_, fun inside => ?_⟩
  · have name : ascii "type" = [116, 121, 112, 101] := by decide
    rw [text, field, written, name]
    exact ⟨_, rfl⟩
  · refine @not_opening_fields [32] (by decide) (message.fields.map written) (fun f member => ?_) ?_
    · obtain ⟨g, inFields, rfl⟩ := List.mem_map.mp member
      exact ⟨(message.names g inFields).1, dumps_str g.2, escaped_dumps_str g.2, rfl⟩
    · rw [shape, List.map_cons, closing]
      refine inside.trans ⟨[comma, 32], [], ?_⟩
      simp

/-- The line of one message is not the end of the line of another. -/
theorem UserMessage.raw_unmixed {first second : UserMessage} (ends : first.raw <:+ second.raw) :
    first.raw = second.raw := by
  obtain ⟨rest, shape, -, free⟩ := second.raw_opening
  obtain ⟨-, -, begins, -⟩ := first.raw_opening
  rw [shape] at ends ⊢
  rcases List.suffix_cons_iff.mp ends with same | inside
  · exact same
  · exact absurd (begins.isInfix.trans inside.isInfix) free

theorem UserMessage.raw_line (message : UserMessage) : ∃ body, message.raw = body ++ [newline] ∧ newline ∉ body :=
  ⟨dumps message.fields, rfl, fun member =>
    absurd (printable_dumps (fun f inFields => (message.names f inFields).2) newline member).1 (by decide)⟩

theorem linesOf_lines (order : List UserMessage) :
    linesOf (order.flatMap UserMessage.raw) = order.map fun message => dumps message.fields := by
  induction order with
  | nil => exact linesOf_of_not_mem List.not_mem_nil
  | cons message order ih =>
    have ended : unread message.raw = [] := by
      obtain ⟨body, shape, absent⟩ := message.raw_line
      rw [shape, unread, unfinished_cut absent]
      rfl
    rw [List.flatMap_cons, linesOf_append, ended, List.nil_append, ih, UserMessage.raw,
      linesOf_raw fun f inFields => (message.names f inFields).2]
    rfl

/-- The server receives the lines of these messages in some order, and handles
each message once. -/
def LinesArrive (messages : List UserMessage) (received : Bytes) : Prop :=
  ∃ order : List UserMessage, order.Perm messages ∧ received = order.flatMap UserMessage.raw ∧
    linesOf received = order.map fun message => dumps message.fields

/-- The line of the call at a position. -/
def lineAt (messages : List UserMessage) (i : ℕ) : Bytes := (messages.getD i (.command [])).raw

section Finished
variable {messages : List UserMessage} {connector : MonitorConnector} {log : List (ℕ × Bytes)}

theorem SendRun.writes (run : SendRun messages connector log) (finished : connector.Finished) :
    Writes (lineAt messages) (List.range messages.length) (letters log) := by
  have accounted := SendRun.accounted run
  refine ⟨List.nodup_range, fun p member => ?_, fun i inRange => ?_⟩
  · obtain ⟨q, inLog, inside⟩ := List.mem_flatMap.mp member
    obtain ⟨c, -, rfl⟩ := List.mem_map.mp inside
    exact List.mem_range.mpr (accounted.pieces q inLog).1
  · rw [List.mem_range, ← accounted.same, List.length_map] at inRange
    have atIndex := List.getElem?_eq_getElem inRange
    have whole := accounted.lines i _ atIndex
    have nothing : connector.calls[i].unsent = [] := by
      rw [SendCall.unsent, finished _ (List.getElem_mem inRange)]
    rw [nothing, List.append_nil] at whole
    rw [whole, lineAt, ← accounted.same, List.getD_eq_getElem?_getD, List.getElem?_map, atIndex]
    rfl

theorem SendRun.apart (run : SendRun messages connector log) (finished : connector.Finished)
    (arrive : LinesArrive messages (log.flatMap Prod.snd)) : Apart (log.map Prod.fst) := by
  obtain ⟨order, perm, received, -⟩ := arrive
  have words : (List.range messages.length).map (lineAt messages) = messages.map UserMessage.raw := by
    refine List.ext_getElem (by simp) fun i bound _ => ?_
    have inside : i < messages.length := by simpa using bound
    simp [lineAt, inside]
  rw [← apart_letters_iff fun p member => ((SendRun.accounted run).pieces p member).2]
  refine (SendRun.writes run finished).apart (fun i => UserMessage.raw_line _) (fun i j => UserMessage.raw_unmixed)
    (order.map UserMessage.raw) ?_ ?_
  · change (order.map UserMessage.raw).Perm ((List.range messages.length).map (lineAt messages))
    rw [words]
    exact perm.map _
  · rw [map_snd_letters, received]
    rfl

theorem SendRun.lines_arrive (run : SendRun messages connector log) (finished : connector.Finished)
    (apart : Apart (log.map Prod.fst)) : LinesArrive messages (log.flatMap Prod.snd) := by
  rw [← apart_letters_iff fun p member => ((SendRun.accounted run).pieces p member).2] at apart
  have some_ (i : ℕ) : lineAt messages i ≠ [] := by
    obtain ⟨body, shape, -⟩ := UserMessage.raw_line (messages.getD i (.command []))
    rw [lineAt, shape]
    exact List.concat_ne_nil _ _
  obtain ⟨order, perm, flat⟩ := (SendRun.writes run finished).exists_order some_ apart
  have all : (List.range messages.length).map (fun i => messages.getD i (.command [])) = messages := by
    refine List.ext_getElem (by simp) fun i bound inside => ?_
    simp [inside]
  refine ⟨order.map fun i => messages.getD i (.command []), ?_, ?_, ?_⟩
  · have mapped := perm.map fun i => messages.getD i (.command [])
    rwa [all] at mapped
  · rw [← map_snd_letters, flat, List.flatMap_map]
    rfl
  · rw [← linesOf_lines, ← map_snd_letters, flat, List.flatMap_map]
    rfl

/-- When all calls have returned, the server has received their lines whole, in
some order, exactly when nothing of another call was sent between two sends of a call. -/
theorem lines_arrive_iff_apart (run : SendRun messages connector log) (finished : connector.Finished) :
    LinesArrive messages (log.flatMap Prod.snd) ↔ Apart (log.map Prod.fst) :=
  ⟨SendRun.apart run finished, SendRun.lines_arrive run finished⟩

end Finished

/-- A step of a call, for runs that are executed. -/
inductive SendAction where
  | acquire (i : ℕ)
  | release (i : ℕ)
  | send (i n : ℕ)

namespace MonitorConnector

def perform (connector : MonitorConnector) : SendAction → Option (MonitorConnector × List (ℕ × Bytes))
  | .acquire i =>
    connector.calls[i]?.bind fun call =>
      if call.phase = .start ∧ connector.lock = none then
        some ({ connector.setPhase i call .locked with lock := some (some i) }, [])
      else none
  | .release i =>
    connector.calls[i]?.bind fun call =>
      if call.phase = .locked then
        some ({ connector.setPhase i call (if connector.connected then .sending call.message.raw else .raised) with
          lock := none }, [])
      else none
  | .send i n =>
    connector.calls[i]?.bind fun call =>
      call.phase.rest?.bind fun rest =>
        if 0 < n ∧ n ≤ rest.length then
          some (connector.setPhase i call (if n = rest.length then .returned else .sending (rest.drop n)),
            [(i, rest.take n)])
        else none

def performAll : MonitorConnector → List SendAction → Option (MonitorConnector × List (ℕ × Bytes))
  | connector, [] => some (connector, [])
  | connector, action :: actions =>
    (connector.perform action).bind fun first =>
      (first.1.performAll actions).map fun rest => (rest.1, first.2 ++ rest.2)

theorem perform_step {connector after : MonitorConnector} {action : SendAction} {entries : List (ℕ × Bytes)}
    (performed : connector.perform action = some (after, entries)) : SendStep connector entries after := by
  cases action with
  | acquire i =>
    obtain ⟨call, atIndex, taken⟩ := Option.bind_eq_some_iff.mp performed
    split at taken
    · rename_i free
      cases taken
      exact .acquire atIndex free.1 free.2
    · cases taken
  | release i =>
    obtain ⟨call, atIndex, taken⟩ := Option.bind_eq_some_iff.mp performed
    split at taken
    · rename_i locked
      cases taken
      exact .release atIndex locked
    · cases taken
  | send i n =>
    obtain ⟨call, atIndex, inner⟩ := Option.bind_eq_some_iff.mp performed
    obtain ⟨rest, sending, taken⟩ := Option.bind_eq_some_iff.mp inner
    split at taken
    · rename_i part
      cases taken
      exact .send atIndex (SendPhase.eq_of_rest? sending) part.1 part.2
    · cases taken

/-- What executed calls do is a run. -/
theorem performAll_run {messages : List UserMessage} {connector after : MonitorConnector} {actions : List SendAction}
    {log log' : List (ℕ × Bytes)} (run : SendRun messages connector log)
    (performed : connector.performAll actions = some (after, log')) : SendRun messages after (log ++ log') := by
  induction actions generalizing connector log log' with
  | nil =>
    cases performed
    rwa [List.append_nil]
  | cons action actions ih =>
    obtain ⟨⟨middle, entries⟩, first, inner⟩ := Option.bind_eq_some_iff.mp performed
    obtain ⟨⟨last, rest⟩, later, same⟩ := Option.map_eq_some_iff.mp inner
    cases same
    rw [← List.append_assoc]
    exact ih (.next run (perform_step first)) later

/-- The actions can be performed, all calls have returned after them, and these are the pieces sent. -/
def sends (messages : List UserMessage) (actions : List SendAction) (pieces : List (ℕ × ℕ)) : Bool :=
  match performAll { calls := messages.map fun message => { message } } actions with
  | some (connector, log) =>
    connector.calls.all (fun call => call.phase = .returned) && decide (log.map (fun p => (p.1, p.2.length)) = pieces)
  | none => false

theorem run_of_sends {messages : List UserMessage} {actions : List SendAction} {pieces : List (ℕ × ℕ)}
    (performed : sends messages actions pieces = true) :
    ∃ connector log, SendRun messages connector log ∧ connector.Finished ∧
      log.map (fun p => (p.1, p.2.length)) = pieces := by
  unfold sends at performed
  split at performed
  · rename_i connector log result
    simp only [Bool.and_eq_true, List.all_eq_true, decide_eq_true_eq] at performed
    exact ⟨connector, log, performAll_run .start result, performed⟩
  · cases performed

end MonitorConnector

/-- A call that sends its line in two parts while another one waits for its turn. -/
theorem lines_arrive_iff_apart_in_turn :
    ∃ messages connector log, SendRun messages connector log ∧ connector.Finished ∧ messages.length = 2 ∧
      log.length = 3 ∧ LinesArrive messages (log.flatMap Prod.snd) := by
  let messages : List UserMessage := [.command (pyLiteral "/clients"), .chat (pyLiteral "me") (pyLiteral "hello")]
  have performed : MonitorConnector.sends messages
      [.acquire 0, .release 0, .acquire 1, .send 0 1, .release 1, .send 0 39, .send 1 48]
      [(0, 1), (0, 39), (1, 48)] = true := by decide +kernel
  obtain ⟨connector, log, run, finished, pieces⟩ := MonitorConnector.run_of_sends performed
  have writers : log.map Prod.fst = [0, 0, 1] := by
    have firsts := congrArg (List.map Prod.fst) pieces
    simpa [Function.comp_def] using firsts
  have three := congrArg List.length writers
  rw [List.length_map] at three
  refine ⟨messages, connector, log, run, finished, rfl, three, (lines_arrive_iff_apart run finished).mpr ?_⟩
  have turns : Apart ([0, 0] ++ [1]) :=
    Apart.append (i := 1) (fun i j _ between => absurd between.length_le (by simp)) (by decide) (by simp)
  rwa [writers]

/-- Two calls take the lock one after the other, and then both send: the first
one byte, the second its line, the first its rest. -/
theorem interleaved_lines_mix :
    ¬ ∀ messages connector log, SendRun messages connector log → connector.Finished →
      LinesArrive messages (log.flatMap Prod.snd) := by
  intro arrive
  let messages : List UserMessage := [.command (pyLiteral "/clients"), .chat (pyLiteral "me") (pyLiteral "hello")]
  have performed : MonitorConnector.sends messages
      [.acquire 0, .release 0, .acquire 1, .release 1, .send 0 1, .send 1 48, .send 0 39]
      [(0, 1), (1, 48), (0, 39)] = true := by decide +kernel
  obtain ⟨connector, log, run, finished, pieces⟩ := MonitorConnector.run_of_sends performed
  have writers : log.map Prod.fst = [0, 1, 0] := by
    have firsts := congrArg (List.map Prod.fst) pieces
    simpa [Function.comp_def] using firsts
  have apart := SendRun.apart run finished (arrive messages connector log run finished)
  rw [writers] at apart
  exact apart 0 1 (by decide) (List.Sublist.refl _)

end SysNetMon
