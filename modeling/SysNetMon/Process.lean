import SysNetMon.Run
import SysNetMon.Text.Framing

/-!
The server process around the message handling: the rounds of `run`, the bytes
that `read_client` receives and the lines it takes out of them.
-/

namespace SysNetMon
open Bytes Framing

/-- A call of `handle_line`, with the server that it was made on. -/
structure Call where
  before : MonitorServer
  clock : ℕ → Tm
  index : ℕ
  line : Bytes

def Call.result (platform : Platform) (call : Call) : Except Abort (MonitorServer × List Output) :=
  call.before.handle_line platform call.clock call.index call.line

/-- What the process does, each item under the descriptor of its connection. An empty
chunk stands for a `recv` that received nothing. -/
inductive Activity where
  | accepted (fd : ℕ)
  | received (fd : ℕ) (chunk : Bytes)
  | handed (fd : ℕ) (call : Call)
  | closed (fd : ℕ)

/-- The process: its server, what it has done, and what ended it. -/
structure Process where
  server : MonitorServer := {}
  log : List Activity := []
  ended : Option Abort := none

/-- What `select` and `recv` report for a connection. An empty `received` stands
for a result of `recv` that is not positive. -/
inductive Ready where
  | idle
  | failed
  | readable (received : Bytes)

/-- What one round of `run` meets: the result of `accept`, if one was due, and
the state of each connection. `clock i k` gives the readings for the line taken
in iteration `k` from the connection at position `i`. -/
structure Round where
  accepted : Option (ℕ × Peer)
  ready : ℕ → Ready
  clock : ℕ → ℕ → ℕ → Tm

def MonitorServer.setBuffer (server : MonitorServer) (index : ℕ) (pending : Bytes) : MonitorServer :=
  server.modifyClient index fun client => { client with buffer := pending }

namespace Process

def hand (platform : Platform) (process : Process) (fd : ℕ) (call : Call) : Process :=
  let log := process.log ++ [.handed fd call]
  match call.result platform with
  | .ok (after, _) => { process with server := after, log }
  | .error abort => { process with log, ended := some abort }

/-- The body of the loop of `read_client`, once a newline was found. -/
def take_line (platform : Platform) (process : Process) (clock : ℕ → Tm) (index fd : ℕ) (segment rest : Bytes) :
    Process :=
  let erased := { process with server := process.server.setBuffer index rest }
  let line := trim segment
  if line = [] then erased else erased.hand platform fd ⟨erased.server, clock, index, line⟩

/-- The loop of `read_client`. Each round looks at the buffer as the calls
before have left it, and takes a newline away; `fuel` bounds their number. -/
def read_loop (platform : Platform) (index : ℕ) : ℕ → (ℕ → ℕ → Tm) → Process → Process
  | 0, _, process => { process with ended := some .impossible }
  | fuel + 1, clock, process =>
    match process.server.clients_[index]? with
    | none => { process with ended := some .impossible }
    | some client =>
      match cut newline client.buffer with
      | none => process
      | some (segment, rest) =>
        let taken := process.take_line platform (clock 0) index client.fd segment rest
        if taken.ended.isSome then taken else read_loop platform index fuel (fun k => clock (k + 1)) taken

/-- `false` asks for the connection to be closed. -/
def read_client (platform : Platform) (process : Process) (clock : ℕ → ℕ → Tm) (index : ℕ) (received : Bytes) :
    Bool × Process :=
  match process.server.clients_[index]? with
  | none => (true, { process with ended := some .impossible })
  | some client =>
    if received = [] then (false, { process with log := process.log ++ [.received client.fd []] })
    else
      let pending := client.buffer ++ received
      (true, read_loop platform index (pending.length + 1) clock
        { process with
          server := process.server.setBuffer index pending
          log := process.log ++ [.received client.fd received] })

/-- `accept` never returns a descriptor that is open; such a result counts as a failed call. -/
def accept_connection (process : Process) : Option (ℕ × Peer) → Process
  | none => process
  | some (fd, peer) =>
    if fd ∈ process.server.clients_.map ClientConnection.fd then process
    else
      { process with
        server := process.server.accept_connection fd peer
        log := process.log ++ [.accepted fd] }

def disconnect_client (process : Process) (index : ℕ) : Process :=
  match process.server.clients_[index]? with
  | none => { process with ended := some .impossible }
  | some client =>
    { process with
      server := process.server.disconnect_client index
      log := process.log ++ [.closed client.fd] }

/-- One position of the loop over `clients_`, with the positions to disconnect so far. -/
def visit (platform : Platform) (round : Round) (state : Process × List ℕ) (index : ℕ) : Process × List ℕ :=
  if state.1.ended.isSome then state
  else
    match state.1.server.clients_[index]? with
    | none => ({ state.1 with ended := some .impossible }, state.2)
    | some client =>
      match round.ready client.fd with
      | .idle => state
      | .failed => (state.1, state.2 ++ [index])
      | .readable received =>
        let (alive, after) := state.1.read_client platform (round.clock index) index received
        (after, if alive then state.2 else state.2 ++ [index])

/-- One round of `run`. A connection that is accepted in a round is not in the
sets that `select` filled, and is read from the next round on. -/
def round (platform : Platform) (process : Process) (round : Round) : Process :=
  if process.ended.isSome then process
  else
    let accepted := process.accept_connection round.accepted
    let read := (List.range process.server.clients_.length).foldl (visit platform round) (accepted, [])
    if read.1.ended.isSome then read.1 else read.2.reverse.foldl disconnect_client read.1

def run (platform : Platform) (rounds : List Round) : Process := rounds.foldl (round platform) {}

end Process

/-- What an item of the process's log is in a run of the server. -/
def Activity.entries (platform : Platform) : Activity → List Entry
  | accepted fd => [.accepted fd]
  | received _ _ => []
  | handed _ call =>
    match call.result platform with
    | .ok (after, outputs) => [.handled ⟨call.before, call.clock, call.index, call.line, outputs, after⟩]
    | .error _ => []
  | closed fd => [.closed fd]

end SysNetMon
