import SysNetMon.Run

namespace SysNetMon
open Bytes Decimal KeySearch Regex

/-- The decimals on which `std::stod` returns. -/
def StodInRange (platform : Platform) (numeral : Bytes) : Prop :=
  |readDecimal numeral| ≤ maxDouble ∧
    ¬ (0 < |readDecimal numeral| ∧ |readDecimal numeral| < minNormal ∧
      platform.strtod_underflows (readDecimal numeral) = true)

/-- The integers on which `std::stoll` returns. -/
def StollInRange (numeral : Bytes) : Prop := -2 ^ 63 ≤ readInt numeral ∧ readInt numeral < 2 ^ 63

/-- The numeral that each numeric field of the line shows, if it shows one, is
within the range of its conversion. -/
def FieldsInRange (platform : Platform) (line : Bytes) : Prop :=
  (∀ key ∈ numberKeys, ∀ numeral ∈ captured (keyValue key numberValue) line, StodInRange platform numeral) ∧
    ∀ key ∈ integerKeys, ∀ numeral ∈ captured (keyValue key integerValue) line, StollInRange numeral

/-- The numeral of a text of the form of an alert command is within range. -/
def ThresholdInRange (platform : Platform) (text : Bytes) : Prop :=
  ∀ word comparison numeral, fullMatch alertPattern text = some [word, comparison, numeral] →
    StodInRange platform numeral

/-- The condition on a line from `client`: only the numeric fields of an agent's
metrics and the threshold of an alert command are converted. -/
def LineInRange (platform : Platform) (client : ClientConnection) (line : Bytes) : Prop :=
  (lineType line = ascii "metrics" ∧ client.role = .Agent → FieldsInRange platform line) ∧
    (lineType line = ascii "command" → startsWith (ascii "/alert") (lower_copy (trim (lineText line))) = true →
      ThresholdInRange platform (lineText line))

theorem ok_bind_iff {ε α β : Type} {x : Except ε α} {f : α → Except ε β} :
    (∃ b, x >>= f = .ok b) ↔ ∃ a, x = .ok a ∧ ∃ b, f a = .ok b := by
  simp only [bind_eq_ok_iff, exists_comm (α := β), exists_and_left]

theorem stod_ok_iff {platform : Platform} {numeral : Bytes} :
    (∃ value, stod platform numeral = .ok value) ↔ StodInRange platform numeral := by
  unfold stod StodInRange
  split
  · rename_i range
    split
    · rename_i underflow
      simp [range, underflow]
    · rename_i normal
      exact ⟨fun _ => ⟨range, normal⟩, fun _ => ⟨_, rfl⟩⟩
  · rename_i overflow
    simp [overflow]

theorem stoll_ok_iff {numeral : Bytes} : (∃ value, stoll numeral = .ok value) ↔ StollInRange numeral := by
  unfold stoll StollInRange
  split
  · rename_i range
    exact ⟨fun _ => range, fun _ => ⟨_, rfl⟩⟩
  · rename_i overflow
    exact ⟨fun ⟨_, returned⟩ => (nomatch returned), fun range => absurd range overflow⟩

theorem json_get_number_ok_iff {platform : Platform} {line key : Bytes} :
    (∃ value, json_get_number platform line key = .ok value) ↔
      ∀ numeral ∈ captured (keyValue key numberValue) line, StodInRange platform numeral := by
  unfold json_get_number
  cases captured (keyValue key numberValue) line with
  | none => simp
  | some numeral =>
    have converted := @stod_ok_iff platform numeral
    cases shape : stod platform numeral <;> simp_all [Except.map]

theorem json_get_integer_ok_iff {line key : Bytes} :
    (∃ value, json_get_integer line key = .ok value) ↔
      ∀ numeral ∈ captured (keyValue key integerValue) line, StollInRange numeral := by
  unfold json_get_integer
  cases captured (keyValue key integerValue) line with
  | none => simp
  | some numeral =>
    have converted := @stoll_ok_iff numeral
    cases shape : stoll numeral <;> simp_all [Except.map]

/-- The metrics branch converts every numeric field, whatever the others hold. -/
theorem read_metric_ok_iff {platform : Platform} {now : Tm} {client : ClientConnection} {line : Bytes} :
    (∃ metric, read_metric platform now client line = .ok metric) ↔ FieldsInRange platform line := by
  simp only [read_metric, ok_bind_iff, FieldsInRange, numberKeys, integerKeys, List.forall_mem_cons,
    List.not_mem_nil, false_imp_iff, implies_true, and_true, ← json_get_number_ok_iff, ← json_get_integer_ok_iff]
  constructor
  · rintro ⟨a, ha, b, hb, c, hc, d, hd, e, he, f, hf, g, hg, h, hh, i, hi, _⟩
    exact ⟨⟨⟨a, ha⟩, ⟨b, hb⟩, ⟨c, hc⟩, ⟨d, hd⟩, ⟨e, he⟩⟩, ⟨f, hf⟩, ⟨g, hg⟩, ⟨h, hh⟩, ⟨i, hi⟩⟩
  · rintro ⟨⟨⟨a, ha⟩, ⟨b, hb⟩, ⟨c, hc⟩, ⟨d, hd⟩, ⟨e, he⟩⟩, ⟨f, hf⟩, ⟨g, hg⟩, ⟨h, hh⟩, ⟨i, hi⟩⟩
    exact ⟨a, ha, b, hb, c, hc, d, hd, e, he, f, hf, g, hg, h, hh, i, hi, _, rfl⟩

theorem parse_alert_command_ok_iff {platform : Platform} {text : Bytes} :
    (∃ rule, parse_alert_command platform text = .ok rule) ↔ ThresholdInRange platform text := by
  unfold parse_alert_command ThresholdInRange
  split
  · rename_i word comparison numeral found
    rw [ok_bind_iff]
    constructor
    · rintro ⟨threshold, converted, _⟩ word' comparison' numeral' found'
      rw [found] at found'
      cases found'
      exact stod_ok_iff.mp ⟨threshold, converted⟩
    · intro range
      obtain ⟨threshold, converted⟩ := stod_ok_iff.mpr (range word comparison numeral found)
      refine ⟨threshold, converted, ?_⟩
      split
      · exact ⟨_, rfl⟩
      · exact ⟨_, rfl⟩
  · rename_i other
    exact ⟨fun _ word comparison numeral found => absurd found (other word comparison numeral), fun _ => ⟨none, rfl⟩⟩

theorem MonitorServer.handle_command_ok_iff {platform : Platform} {server : MonitorServer} {clock : ℕ → Tm}
    {client : ClientConnection} {text : Bytes} :
    (∃ result, server.handle_command platform clock client text = .ok result) ↔
      (startsWith (ascii "/alert") (lower_copy (trim text)) = true → ThresholdInRange platform text) := by
  unfold handle_command
  dsimp only
  split
  · rename_i alert
    rw [ok_bind_iff]
    constructor
    · rintro ⟨rule, parsed, _⟩ _
      exact parse_alert_command_ok_iff.mp ⟨rule, parsed⟩
    · intro range
      obtain ⟨rule, parsed⟩ := parse_alert_command_ok_iff.mpr (range alert)
      cases rule with
      | none => exact ⟨none, parsed, _, rfl⟩
      | some rule => exact ⟨some rule, parsed, _, rfl⟩
  · rename_i other
    refine ⟨fun _ alert => absurd alert other, fun _ => ?_⟩
    split
    · exact ⟨_, rfl⟩
    · split <;> exact ⟨_, rfl⟩

/-- A line is handled to the end exactly when its numerals are within range. -/
theorem MonitorServer.handle_line_ok_iff {platform : Platform} {server : MonitorServer} {clock : ℕ → Tm}
    {index : ℕ} {client : ClientConnection} {line : Bytes} (atIndex : server.clients_[index]? = some client) :
    (∃ result, server.handle_line platform clock index line = .ok result) ↔ LineInRange platform client line := by
  have distinct : ascii "metrics" ≠ ascii "command" ∧ ascii "register" ≠ ascii "metrics" ∧
      ascii "register" ≠ ascii "command" := by decide
  unfold handle_line LineInRange lineType
  rw [atIndex]
  dsimp only
  generalize hType : (json_get_string line (ascii "type")).getD [] = type
  split
  · rename_i isRegister
    simp [isRegister, distinct.2.1, distinct.2.2]
  · split
    · rename_i isMetrics
      rw [ok_bind_iff]
      simp only [isMetrics.1, isMetrics.2, distinct.1, false_imp_iff, and_true, and_self, true_imp_iff,
        ← @read_metric_ok_iff platform (clock 0) client line]
      exact ⟨fun ⟨metric, read, _⟩ => ⟨metric, read⟩, fun ⟨metric, read⟩ => ⟨metric, read, _, rfl⟩⟩
    · rename_i notMetrics
      simp only [notMetrics, false_imp_iff, true_and]
      split
      · rename_i isCommand
        simp only [isCommand, true_imp_iff]
        exact handle_command_ok_iff
      · rename_i notCommand
        simp only [notCommand, false_imp_iff, iff_true]
        split <;> exact ⟨_, rfl⟩

/-- The condition along a run: descriptors and indices are ones that can occur,
and each line meets `LineInRange` in the state in which it arrives. -/
def RequestsInRange (platform : Platform) : MonitorServer → List Request → Prop
  | _, [] => True
  | server, .accept fd peer :: requests =>
    fd ∉ server.clients_.map ClientConnection.fd ∧
      RequestsInRange platform (server.accept_connection fd peer) requests
  | server, .line clock index line :: requests =>
    (∃ client, server.clients_[index]? = some client ∧ LineInRange platform client line) ∧
      ∀ after outputs, server.handle_line platform clock index line = .ok (after, outputs) →
        RequestsInRange platform after requests
  | server, .disconnect index :: requests =>
    (∃ client, server.clients_[index]? = some client) ∧
      RequestsInRange platform (server.disconnect_client index) requests

theorem MonitorServer.serve_cons_ok_iff {platform : Platform} {server : MonitorServer} {request : Request}
    {requests : List Request} :
    (∃ result, server.serve platform (request :: requests) = .ok result) ↔
      ∃ middle entries, server.serveOne platform request = .ok (middle, entries) ∧
        ∃ result, middle.serve platform requests = .ok result := by
  simp only [serve, ok_bind_iff]
  constructor
  · rintro ⟨⟨middle, entries⟩, first, rest, served, _⟩
    exact ⟨middle, entries, first, rest, served⟩
  · rintro ⟨middle, entries, first, rest, served⟩
    exact ⟨(middle, entries), first, rest, served, _, rfl⟩

theorem MonitorServer.serveOne_line {platform : Platform} {server middle : MonitorServer} {clock : ℕ → Tm}
    {index : ℕ} {line : Bytes} {entries : List Entry} :
    server.serveOne platform (.line clock index line) = .ok (middle, entries) ↔
      ∃ outputs, server.handle_line platform clock index line = .ok (middle, outputs) ∧
        entries = [.handled ⟨server, clock, index, line, outputs, middle⟩] := by
  cases handled : server.handle_line platform clock index line with
  | error abort => simp [serveOne, handled, bind, Except.bind]
  | ok result =>
    obtain ⟨after, outputs⟩ := result
    simp only [serveOne, handled, bind, Except.bind, pure, Except.pure, Except.ok.injEq, Prod.mk.injEq]
    constructor
    · rintro ⟨rfl, rfl⟩
      exact ⟨outputs, ⟨rfl, rfl⟩, rfl⟩
    · rintro ⟨_, ⟨rfl, rfl⟩, rfl⟩
      exact ⟨rfl, rfl⟩

/-- No sequence of messages ends the server exactly when every line that
reaches it is within range where it arrives. -/
theorem MonitorServer.serve_ok_iff_in_range (platform : Platform) (server : MonitorServer)
    (requests : List Request) :
    (∃ result, server.serve platform requests = .ok result) ↔ RequestsInRange platform server requests := by
  induction requests generalizing server with
  | nil => simp [serve, RequestsInRange]
  | cons request requests ih =>
    rw [serve_cons_ok_iff]
    cases request with
    | accept fd peer =>
      by_cases opened : fd ∈ server.clients_.map ClientConnection.fd
      · simp only [serveOne, opened, if_true, RequestsInRange, not_true_eq_false, false_and, iff_false]
        rintro ⟨_, _, served, _⟩
        cases served
      · simp only [serveOne, opened, if_false, RequestsInRange, not_false_eq_true, true_and, ← ih]
        constructor
        · rintro ⟨_, _, served, rest⟩
          cases served
          exact rest
        · exact fun rest => ⟨_, _, rfl, rest⟩
    | line clock index line =>
      simp only [serveOne_line, RequestsInRange]
      constructor
      · rintro ⟨middle, entries, ⟨outputs, handled, _⟩, rest⟩
        obtain ⟨client, atIndex, _⟩ := handle_line_cases handled
        refine ⟨⟨client, atIndex, (handle_line_ok_iff atIndex).mp ⟨_, handled⟩⟩, ?_⟩
        intro after outputs' handled'
        rw [handled] at handled'
        cases handled'
        exact (ih _).mp rest
      · rintro ⟨⟨client, atIndex, range⟩, rest⟩
        obtain ⟨⟨after, outputs⟩, handled⟩ : ∃ result, server.handle_line platform clock index line = .ok result :=
          (handle_line_ok_iff atIndex).mpr range
        exact ⟨after, _, ⟨outputs, handled, rfl⟩, (ih _).mpr (rest after outputs handled)⟩
    | disconnect index =>
      cases atIndex : server.clients_[index]? with
      | none =>
        simp only [serveOne, atIndex, RequestsInRange, reduceCtorEq, exists_false, false_and]
      | some client =>
        simp only [serveOne, atIndex, RequestsInRange, Option.some.injEq, exists_eq', true_and, ← ih]
        constructor
        · rintro ⟨_, _, served, rest⟩
          cases served
          exact rest
        · exact fun rest => ⟨_, _, rfl, rest⟩

/-- In every reachable state a line from any connection is handled to the end
exactly when its numerals are within range; and from the start, a list of
requests is served to the end exactly when this holds of each line in turn. -/
theorem server_survives_iff_in_range (platform : Platform) :
    (∀ server log, ServerRun platform server log → ∀ clock index client line,
      server.clients_[index]? = some client →
        ((∃ result, server.handle_line platform clock index line = .ok result) ↔
          LineInRange platform client line)) ∧
    ∀ requests, (∃ result, MonitorServer.serve platform {} requests = .ok result) ↔
      RequestsInRange platform {} requests :=
  ⟨fun _ _ _ _ _ _ _ atIndex => MonitorServer.handle_line_ok_iff atIndex,
    fun requests => MonitorServer.serve_ok_iff_in_range platform {} requests⟩

/-- An agent that reports 2^63 MB ends the server: the integer pattern admits
the numeral and `std::stoll` does not. -/
theorem overlong_integer_ends_server :
    ¬ ∀ platform server log, ServerRun platform server log → ∀ clock index client line,
      server.clients_[index]? = some client →
        ∃ result, server.handle_line platform clock index line = .ok result := by
  intro survives
  let platform : Platform := ⟨fun _ => false⟩
  let clock : ℕ → Tm := fun _ => ⟨2024, 1, 2, 3, 4, 5⟩
  let requests : List Request :=
    [.accept 4 ⟨(127, 0, 0, 1), 50000⟩,
     .line clock 0 (ascii "\x7b\"type\":\"register\",\"role\":\"agent\",\"host\":\"a\"\x7d")]
  let line := ascii "\x7b\"type\":\"metrics\",\"memory_used_mb\":9223372036854775808\x7d"
  have served : MonitorServer.servesTo platform requests (fun server _ => server.clients_.length == 1 &&
      (server.handle_line platform clock 0 line).toOption.isNone) = true := by decide +kernel
  obtain ⟨server, log, run, tested⟩ := MonitorServer.run_of_servesTo served
  rw [Bool.and_eq_true, beq_iff_eq] at tested
  obtain ⟨client, atIndex⟩ : ∃ client, server.clients_[0]? = some client :=
    ⟨server.clients_[0], List.getElem?_eq_getElem (by omega)⟩
  obtain ⟨result, returned⟩ := survives platform server log run clock 0 client line atIndex
  rw [returned] at tested
  cases tested.2

end SysNetMon
