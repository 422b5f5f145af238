import SysNetMon.NetRates
import SysNetMon.Text.Columns

/-!
The files under `/proc` that an agent reads on Linux, and what the extractions
from them find in the form in which the kernel writes them.
-/

namespace SysNetMon
open Bytes Decimal Columns

/-- The extraction of a `std::string` from a stream, where it succeeds. -/
def extractWord (stream : Bytes) : Option (Bytes × Bytes) :=
  let text := stream.dropWhile isspace
  if text = [] then none
  else some (text.takeWhile fun ch => !isspace ch, text.dropWhile fun ch => !isspace ch)

/-- The extraction of a `long long` from a stream, where it succeeds. -/
def extractSigned (stream : Bytes) : Option (Int64 × Bytes) :=
  let text := stream.dropWhile isspace
  let negative := text.head? = some 45
  let numeral := if negative ∨ text.head? = some 43 then text.drop 1 else text
  let digits := numeral.takeWhile isdigit
  let value : ℤ := if negative then -readNat digits else readNat digits
  if digits ≠ [] ∧ -2 ^ 63 ≤ value ∧ value < 2 ^ 63 then some (Int64.ofInt value, numeral.dropWhile isdigit) else none

/-- The first line of `/proc/stat`: a label and eight counters, which stay zero
from the first one on that is not there. -/
def proc_stat_report (text : Bytes) : CpuReport :=
  let values := extractions 8 ((extractWord text).map Prod.snd)
  .proc_stat (values.getD 0 0) (values.getD 1 0) (values.getD 2 0) (values.getD 3 0) (values.getD 4 0)
    (values.getD 5 0) (values.getD 6 0) (values.getD 7 0)

/-- What the loop over `/proc/meminfo` has found. -/
structure MemInfo where
  mem_total_kb : Int64 := 0
  mem_available_kb : Int64 := 0
  deriving DecidableEq

def MemInfo.scan (found : MemInfo) (key : Bytes) (value : Int64) : MemInfo :=
  if key = ascii "MemTotal:" then { found with mem_total_kb := value }
  else if key = ascii "MemAvailable:" then { found with mem_available_kb := value }
  else found

/-- The loop over `/proc/meminfo`. `fuel` bounds the number of its rounds. -/
def MemInfo.read : ℕ → Bytes → MemInfo → MemInfo
  | 0, _, found => found
  | fuel + 1, stream, found =>
    match extractWord stream with
    | none => found
    | some (key, stream) =>
      match extractSigned stream with
      | none => found
      | some (value, stream) =>
        match extractWord stream with
        | none => found
        | some (_, stream) =>
          let found := found.scan key value
          if 0 < found.mem_total_kb ∧ 0 < found.mem_available_kb then found else MemInfo.read fuel stream found

def read_meminfo (text : Bytes) : MemInfo := MemInfo.read (text.length + 1) text {}

section Extract
variable {rest : Bytes}

/-- The numeral is neither of the signs. -/
theorem head_digits (n : ℕ) (rest : Bytes) :
    (digits n ++ rest).head? ≠ some 45 ∧ (digits n ++ rest).head? ≠ some 43 := by
  obtain ⟨ch, tail, shape⟩ := List.exists_cons_of_ne_nil (digits_ne_nil n)
  have digit := isdigit_digits n ch (shape ▸ List.mem_cons_self)
  rw [shape, List.cons_append, List.head?_cons]
  constructor
  all_goals
    rintro ⟨⟩
    exact absurd digit (by decide)

theorem extract_column {c : ℕ × ℕ} (small : c.2 < 2 ^ 64) (stops : Stops isdigit rest) :
    extract (column c ++ rest) = (UInt64.ofNat c.2, some rest) := by
  obtain ⟨notMinus, notPlus⟩ := head_digits c.2 rest
  unfold extract
  rw [dropWhile_column]
  dsimp only
  rw [if_neg (not_or.mpr ⟨notMinus, notPlus⟩), takeWhile_token (isdigit_digits c.2) stops,
    dropWhile_token (isdigit_digits c.2) stops, readNat_digits, if_neg (digits_ne_nil c.2), if_pos small,
    if_neg notMinus]

theorem extractSigned_column {c : ℕ × ℕ} (small : c.2 < 2 ^ 63) (stops : Stops isdigit rest) :
    extractSigned (column c ++ rest) = some (Int64.ofInt c.2, rest) := by
  obtain ⟨notMinus, notPlus⟩ := head_digits c.2 rest
  unfold extractSigned
  rw [dropWhile_column]
  dsimp only
  rw [if_neg (not_or.mpr ⟨notMinus, notPlus⟩), takeWhile_token (isdigit_digits c.2) stops,
    dropWhile_token (isdigit_digits c.2) stops, readNat_digits, if_neg notMinus]
  exact if_pos ⟨digits_ne_nil c.2, by omega, by omega⟩

/-- The next token is no numeral. -/
def NoNumeral (stream : Bytes) : Prop :=
  Stops (fun ch => isdigit ch || ch == 45 || ch == 43) (stream.dropWhile isspace)

/-- An extraction that finds no numeral fails and stores a zero. -/
theorem extract_of_noNumeral {stream : Bytes} (none : NoNumeral stream) : extract stream = (0, .none) := by
  have signs : (stream.dropWhile isspace).head? ≠ some 45 ∧ (stream.dropWhile isspace).head? ≠ some 43 :=
    ⟨fun is => absurd (none 45 is) (by decide), fun is => absurd (none 43 is) (by decide)⟩
  have stops : Stops isdigit (stream.dropWhile isspace) := by
    intro ch is
    have all := none ch is
    simp only [Bool.or_eq_false_iff] at all
    exact all.1.1
  unfold extract
  dsimp only
  rw [if_neg (not_or.mpr signs), stops.takeWhile, if_pos rfl]

theorem extractions_none (count : ℕ) : extractions count none = List.replicate count 0 := by
  induction count with
  | zero => rfl
  | succ count ih => rw [extractions, ih, List.replicate_succ]

theorem extractions_of_noNumeral {stream : Bytes} (none : NoNumeral stream) (count : ℕ) :
    extractions count (some stream) = List.replicate count 0 := by
  cases count with
  | zero => rfl
  | succ count => rw [extractions, extract_of_noNumeral none, extractions_none, List.replicate_succ]

/-- The counter that is extracted for a column. -/
def counter (c : ℕ × ℕ) : UInt64 := UInt64.ofNat c.2

/-- A word that stands between blanks. -/
structure Solid (word : Bytes) : Prop where
  whole : ∀ ch ∈ word, isspace ch = false
  some : word ≠ []

instance (word : Bytes) : Decidable (Solid word) :=
  decidable_of_iff ((word.all fun ch => !isspace ch) = true ∧ word.isEmpty = false)
    ⟨fun h => ⟨by simpa using h.1, by simpa using h.2⟩, fun h => ⟨by simpa using h.whole, by simpa using h.some⟩⟩

theorem Solid.nonblank {word : Bytes} (solid : Solid word) : ∀ ch ∈ word, (!isspace ch) = true := fun ch member => by
  rw [solid.whole ch member]
  rfl

theorem extractWord_solid {gap word : Bytes} (blank : ∀ ch ∈ gap, isspace ch = true) (solid : Solid word)
    (stops : Stops (fun ch => !isspace ch) rest) : extractWord (gap ++ (word ++ rest)) = some (word, rest) := by
  have skipped : (gap ++ (word ++ rest)).dropWhile isspace = word ++ rest :=
    dropWhile_token blank (.of_token solid.whole solid.some rest)
  unfold extractWord
  rw [skipped]
  dsimp only
  rw [if_neg (List.append_ne_nil_of_left_ne_nil solid.some rest), takeWhile_token solid.nonblank stops,
    dropWhile_token solid.nonblank stops]

theorem NoNumeral.stops (none : NoNumeral rest) : Stops isdigit rest := by
  intro ch is
  by_contra digit
  rw [Bool.not_eq_false] at digit
  have solid : Stops isspace rest := fun ch' is' => by
    rw [is, Option.mem_some_iff] at is'
    rw [← is']
    exact not_isspace_digit digit
  rw [NoNumeral, solid.dropWhile] at none
  have stops := none ch is
  simp [digit] at stops

/-- Of the columns of a line, extractions read as many as are asked for; where
the line has fewer, the others are zero. -/
theorem extractions_line {columns : List (ℕ × ℕ)} (small : ∀ c ∈ columns, c.2 < 2 ^ 64)
    (apart : ∀ c ∈ columns.tail, 0 < c.1) (none : NoNumeral rest) (count : ℕ) :
    extractions count (some (columns.flatMap column ++ rest)) =
      (columns.take count).map counter ++ List.replicate (count - columns.length) 0 := by
  induction columns generalizing count with
  | nil => rw [List.flatMap_nil, List.nil_append, extractions_of_noNumeral none, List.take_nil]; rfl
  | cons c columns ih =>
    rw [List.forall_mem_cons] at small
    have later : ∀ c ∈ columns.tail, 0 < c.1 := fun d member => apart d (List.mem_of_mem_tail member)
    have behind : Stops isdigit (columns.flatMap column ++ rest) := stops_columns apart none.stops
    cases count with
    | zero => rw [extractions, List.take_zero, Nat.zero_sub]; rfl
    | succ count =>
      rw [List.flatMap_cons, List.append_assoc, extractions, extract_column small.1 behind, ih small.2 later,
        List.take_succ_cons, List.length_cons, Nat.add_sub_add_right]
      rfl

theorem getD_extractions_line {columns : List (ℕ × ℕ)} (small : ∀ c ∈ columns, c.2 < 2 ^ 64)
    (apart : ∀ c ∈ columns.tail, 0 < c.1) (none : NoNumeral rest) {count i : ℕ} (asked : i < count) :
    (extractions count (some (columns.flatMap column ++ rest))).getD i 0 =
      UInt64.ofNat ((columns.map Prod.snd).getD i 0) := by
  rw [extractions_line small apart none, List.getD_eq_getElem?_getD, List.getD_eq_getElem?_getD, List.getElem?_map]
  by_cases inside : i < columns.length
  · have first : i < ((columns.take count).map counter).length := by
      rw [List.length_map, List.length_take]
      omega
    rw [List.getElem?_append_left first, List.getElem?_map, List.getElem?_take_of_lt asked,
      List.getElem?_eq_getElem inside]
    rfl
  · have behind : ((columns.take count).map counter).length ≤ i := by
      rw [List.length_map, List.length_take]
      omega
    rw [List.getElem?_append_right behind, List.getElem?_replicate, List.getElem?_eq_none (not_lt.mp inside)]
    split <;> rfl

end Extract

section Stat
variable {label more : Bytes} {columns : List (ℕ × ℕ)}

theorem sum_take_succ (ticks : List ℕ) (n : ℕ) : (ticks.take (n + 1)).sum = (ticks.take n).sum + ticks.getD n 0 := by
  rw [List.take_add_one, List.sum_append, List.getD_eq_getElem?_getD]
  cases ticks[n]? <;> simp

theorem noNumeral_newline (none : NoNumeral more) : NoNumeral (newline :: more) := none

theorem stops_nonblank (apart : ∀ c ∈ columns, 0 < c.1) (more : Bytes) :
    Stops (fun ch => !isspace ch) (columns.flatMap column ++ newline :: more) := by
  cases columns with
  | nil =>
    rintro _ ⟨⟩
    rfl
  | cons c columns =>
    obtain ⟨n, length⟩ := Nat.exists_eq_succ_of_ne_zero (apart c List.mem_cons_self).ne'
    rw [List.flatMap_cons, column, blanks, length, List.replicate_succ]
    rintro _ ⟨⟩
    rfl

/-- What is read of the first line of `/proc/stat`, of any number of columns: the
total is that of the first eight, in which guest time is already counted, and
the idle time that of the fourth and the fifth. -/
theorem read_cpu_sample_proc_stat (solid : Solid label) (small : ∀ c ∈ columns, c.2 < 2 ^ 64)
    (apart : ∀ c ∈ columns, 0 < c.1) (none : NoNumeral more) :
    read_cpu_sample (proc_stat_report (label ++ (columns.flatMap column ++ newline :: more))) =
      { idle := UInt64.ofNat ((columns.map Prod.snd).getD 3 0 + (columns.map Prod.snd).getD 4 0)
        total := UInt64.ofNat ((columns.map Prod.snd).take 8).sum } := by
  have labelled : extractWord (label ++ (columns.flatMap column ++ newline :: more)) =
      some (label, columns.flatMap column ++ newline :: more) :=
    extractWord_solid (List.forall_mem_nil _) solid (stops_nonblank apart more)
  have later : ∀ c ∈ columns.tail, 0 < c.1 := fun c member => apart c (List.mem_of_mem_tail member)
  have found : ∀ i < 8, (extractions 8 (some (columns.flatMap column ++ newline :: more))).getD i 0 =
      UInt64.ofNat ((columns.map Prod.snd).getD i 0) := fun i =>
    getD_extractions_line small later (noNumeral_newline none)
  rw [proc_stat_report, labelled, Option.map_some, read_cpu_sample]
  dsimp only
  rw [found 0 (by decide), found 1 (by decide), found 2 (by decide), found 3 (by decide), found 4 (by decide),
    found 5 (by decide), found 6 (by decide), found 7 (by decide)]
  simp only [sum_take_succ, List.take_zero, List.sum_nil, Nat.zero_add, UInt64.ofNat_add]

/-- A kernel that counts four states only. -/
theorem read_cpu_sample_proc_stat_four_states :
    read_cpu_sample (proc_stat_report
      (ascii "cpu" ++ ([(2, 10), (1, 1), (1, 2), (1, 70)].flatMap column ++ newline :: ascii "cpu0 10"))) =
      { idle := 70, total := 83 } :=
  read_cpu_sample_proc_stat (by decide +kernel) (by decide) (by decide) (by rintro _ ⟨⟩; rfl)

end Stat

/-- An interface, as its line in `/proc/net/dev` shows it. -/
structure Interface where
  pad : ℕ
  name : Bytes
  columns : List (ℕ × ℕ)

namespace Interface

def line (interface : Interface) : Bytes :=
  blanks interface.pad ++ interface.name ++ colon :: interface.columns.flatMap column

/-- The name is one that the kernel admits, and the counters are set apart and fit their type. -/
structure Regular (interface : Interface) : Prop where
  solid : Solid interface.name
  named : colon ∉ interface.name
  small : ∀ c ∈ interface.columns, c.2 < 2 ^ 64
  apart : ∀ c ∈ interface.columns.tail, 0 < c.1

instance (interface : Interface) : Decidable interface.Regular :=
  decidable_of_iff (Solid interface.name ∧ colon ∉ interface.name ∧ (∀ c ∈ interface.columns, c.2 < 2 ^ 64) ∧
      ∀ c ∈ interface.columns.tail, 0 < c.1)
    ⟨fun h => ⟨h.1, h.2.1, h.2.2.1, h.2.2.2⟩, fun h => ⟨h.solid, h.named, h.small, h.apart⟩⟩

def counters (interface : Interface) : List ℕ := interface.columns.map Prod.snd

/-- The bytes received and sent through the interfaces other than the loopback. -/
def received (interfaces : List Interface) : ℕ :=
  ((interfaces.filter fun interface => interface.name ≠ ascii "lo").map fun interface => interface.counters.getD 0 0).sum

def sent (interfaces : List Interface) : ℕ :=
  ((interfaces.filter fun interface => interface.name ≠ ascii "lo").map fun interface => interface.counters.getD 8 0).sum

end Interface

section NetDev
variable {interface : Interface}

theorem trim_solid {pad : ℕ} {name : Bytes} (solid : Solid name) : trim (blanks pad ++ name) = name := by
  have front : (blanks pad ++ name).dropWhile isspace = name := by
    have skipped := dropWhile_token (isspace_blanks (n := pad)) (.of_token solid.whole solid.some [])
    rwa [List.append_nil] at skipped
  rw [trim, front, List.rdropWhile_eq_self_iff]
  intro some space
  rw [solid.whole _ (List.getLast_mem some)] at space
  cases space

theorem noNumeral_nil : NoNumeral [] := nofun

theorem colon_not_mem_blanks (n : ℕ) : colon ∉ blanks n := fun member =>
  absurd (isspace_blanks colon member) (by decide)

/-- A line adds its first and its ninth counter unless it is that of the loopback. -/
theorem addLine_line (sample : NetSample) (regular : interface.Regular) :
    addLine sample interface.line =
      if interface.name = ascii "lo" then sample
      else sample.add (UInt64.ofNat (interface.counters.getD 0 0)) (UInt64.ofNat (interface.counters.getD 8 0)) := by
  have absent : colon ∉ blanks interface.pad ++ interface.name := fun member =>
    (List.mem_append.mp member).elim (colon_not_mem_blanks _) regular.named
  have found : ∀ i < 16, (extractions 16 (some (interface.columns.flatMap column))).getD i 0 =
      UInt64.ofNat (interface.counters.getD i 0) := fun i asked => by
    have read := getD_extractions_line regular.small regular.apart noNumeral_nil asked
    rwa [List.append_nil] at read
  rw [addLine, Interface.line, Framing.cut_of_not_mem absent]
  dsimp only
  rw [trim_solid regular.solid, found 0 (by decide), found 8 (by decide)]

theorem getlines_cut {segment : Bytes} (absent : newline ∉ segment) (rest : Bytes) :
    getlines (segment ++ newline :: rest) = segment :: getlines rest := by
  obtain ⟨piece, pieces, shape⟩ := List.exists_cons_of_ne_nil (List.splitOn_ne_nil newline rest)
  rw [getlines, getlines, List.splitOn_append_cons_self_of_not_mem absent, shape, List.getLast?_cons_cons]
  split <;> rfl

theorem newline_not_mem_columns (columns : List (ℕ × ℕ)) : newline ∉ columns.flatMap column := by
  intro member
  obtain ⟨c, -, inside⟩ := List.mem_flatMap.mp member
  rcases List.mem_append.mp inside with blank | digit
  · exact absurd (List.mem_replicate.mp blank).2 (by decide)
  · exact absurd (isdigit_digits _ _ digit) (by decide)

theorem newline_not_mem_line (regular : interface.Regular) : newline ∉ interface.line := by
  rw [Interface.line, List.mem_append, List.mem_append, List.mem_cons, not_or, not_or, not_or]
  refine ⟨⟨fun blank => ?_, fun member => ?_⟩, by decide, newline_not_mem_columns _⟩
  · exact absurd (List.mem_replicate.mp blank).2 (by decide)
  · exact absurd (regular.solid.whole newline member) (by decide)

/-- The lines of the interfaces, one after another. -/
def netDevText (interfaces : List Interface) : Bytes :=
  interfaces.flatMap fun interface => interface.line ++ [newline]

theorem getlines_netDevText {interfaces : List Interface} (regular : ∀ interface ∈ interfaces, interface.Regular) :
    getlines (netDevText interfaces) = interfaces.map Interface.line := by
  induction interfaces with
  | nil => rfl
  | cons interface interfaces ih =>
    rw [List.forall_mem_cons] at regular
    rw [netDevText, List.flatMap_cons, List.append_assoc, List.singleton_append,
      getlines_cut (newline_not_mem_line regular.1), List.map_cons]
    exact congrArg (interface.line :: ·) (ih regular.2)

theorem NetSample.add_add (sample : NetSample) (rx tx rx' tx' : UInt64) :
    (sample.add rx tx).add rx' tx' = sample.add (rx + rx') (tx + tx') := by
  rw [NetSample.add, NetSample.add, NetSample.add, UInt64.add_assoc, UInt64.add_assoc]

theorem foldl_addLine {interfaces : List Interface} (regular : ∀ interface ∈ interfaces, interface.Regular)
    (sample : NetSample) :
    (interfaces.map Interface.line).foldl addLine sample =
      sample.add (UInt64.ofNat (Interface.received interfaces)) (UInt64.ofNat (Interface.sent interfaces)) := by
  induction interfaces generalizing sample with
  | nil => exact (NetSample.ext (UInt64.add_zero _) (UInt64.add_zero _)).symm
  | cons interface interfaces ih =>
    rw [List.forall_mem_cons] at regular
    rw [List.map_cons, List.foldl_cons, ih regular.2, addLine_line _ regular.1, Interface.received, Interface.sent,
      Interface.received, Interface.sent]
    by_cases loopback : interface.name = ascii "lo"
    · rw [if_pos loopback, List.filter_cons_of_neg (by simp [loopback])]
    · rw [if_neg loopback, List.filter_cons_of_pos (by simp [loopback]), NetSample.add_add, List.map_cons,
        List.map_cons, List.sum_cons, List.sum_cons, UInt64.ofNat_add, UInt64.ofNat_add]

/-- What is read of `/proc/net/dev`, for interfaces in any order and of any
number: modulo `2 ^ 64`, the bytes through those that are not the loopback. -/
theorem read_net_sample_proc_net_dev {first second : Bytes} (first_line : newline ∉ first)
    (second_line : newline ∉ second) {interfaces : List Interface}
    (regular : ∀ interface ∈ interfaces, interface.Regular) :
    read_net_sample (.proc_net_dev (first ++ newline :: (second ++ newline :: netDevText interfaces))) =
      { rx_bytes := UInt64.ofNat (Interface.received interfaces)
        tx_bytes := UInt64.ofNat (Interface.sent interfaces) } := by
  rw [read_net_sample, getlines_cut first_line, getlines_cut second_line, getlines_netDevText regular]
  change (interfaces.map Interface.line).foldl addLine {} = _
  rw [foldl_addLine regular]
  exact NetSample.ext (UInt64.zero_add _) (UInt64.zero_add _)

/-- A loopback before a device. -/
theorem read_net_sample_proc_net_dev_loopback :
    read_net_sample (.proc_net_dev (ascii "Inter-|" ++ newline :: (ascii " face |" ++ newline ::
      netDevText [⟨4, ascii "lo", [(1, 9), (1, 2)]⟩, ⟨2, ascii "eth0", [(0, 70), (1, 2)]⟩]))) =
      { rx_bytes := 70, tx_bytes := 0 } :=
  read_net_sample_proc_net_dev (by decide) (by decide) (by decide +kernel)

end NetDev

/-- A line of `/proc/meminfo`: a key, an amount and its unit. -/
structure MemLine where
  key : Bytes
  pad : ℕ
  amount : ℕ
  unit : Bytes

namespace MemLine

def text (line : MemLine) : Bytes := line.key ++ (column (line.pad, line.amount) ++ 32 :: (line.unit ++ [newline]))

structure Regular (line : MemLine) : Prop where
  key_solid : Solid line.key
  unit_solid : Solid line.unit
  apart : 0 < line.pad
  small : line.amount < 2 ^ 63

instance (line : MemLine) : Decidable line.Regular :=
  decidable_of_iff (Solid line.key ∧ Solid line.unit ∧ 0 < line.pad ∧ line.amount < 2 ^ 63)
    ⟨fun h => ⟨h.1, h.2.1, h.2.2.1, h.2.2.2⟩, fun h => ⟨h.key_solid, h.unit_solid, h.apart, h.small⟩⟩

/-- The lines with the key, if any, all show this amount. -/
def Shows (lines : List MemLine) (key : String) (amount : ℕ) : Prop :=
  ∀ line ∈ lines, line.key = ascii key → line.amount = amount

end MemLine

section MemInfo
variable {line : MemLine} {lines : List MemLine} {gap tail : Bytes}

/-- One round of the loop reads one line. -/
theorem MemInfo.read_line (blank : ∀ ch ∈ gap, isspace ch = true) (regular : line.Regular) (fuel : ℕ)
    (found : MemInfo) :
    MemInfo.read (fuel + 1) (gap ++ (line.text ++ tail)) found =
      if 0 < (found.scan line.key (Int64.ofInt line.amount)).mem_total_kb ∧
          0 < (found.scan line.key (Int64.ofInt line.amount)).mem_available_kb then
        found.scan line.key (Int64.ofInt line.amount)
      else MemInfo.read fuel (newline :: tail) (found.scan line.key (Int64.ofInt line.amount)) := by
  have shape : line.text ++ tail =
      line.key ++ (column (line.pad, line.amount) ++ (32 :: (line.unit ++ newline :: tail))) := by
    simp [MemLine.text]
  have keyed : extractWord (gap ++ (line.text ++ tail)) =
      some (line.key, column (line.pad, line.amount) ++ (32 :: (line.unit ++ newline :: tail))) := by
    rw [shape]
    refine extractWord_solid blank regular.key_solid ?_
    obtain ⟨n, length⟩ := Nat.exists_eq_succ_of_ne_zero regular.apart.ne'
    rw [column, blanks, length, List.replicate_succ]
    rintro _ ⟨⟩
    rfl
  have valued : extractSigned (column (line.pad, line.amount) ++ (32 :: (line.unit ++ newline :: tail))) =
      some (Int64.ofInt line.amount, 32 :: (line.unit ++ newline :: tail)) :=
    extractSigned_column (c := (line.pad, line.amount)) regular.small (by rintro _ ⟨⟩; rfl)
  have united : extractWord (32 :: (line.unit ++ newline :: tail)) = some (line.unit, newline :: tail) :=
    @extractWord_solid _ [32] _ (List.forall_mem_singleton.mpr rfl) regular.unit_solid (by rintro _ ⟨⟩; rfl)
  rw [MemInfo.read, keyed]
  dsimp only
  rw [valued]
  dsimp only
  rw [united]

/-- An amount is known, or a line that shows it is still to come. -/
def MemLine.Due (lines : List MemLine) (key : String) (known amount : Int64) : Prop :=
  known = amount ∨ known = 0 ∧ ∃ line ∈ lines, line.key = ascii key

theorem MemLine.Due.later {key : String} {known amount : Int64} (due : MemLine.Due (line :: lines) key known amount)
    (other : line.key ≠ ascii key) : MemLine.Due lines key known amount :=
  due.imp_right fun later => ⟨later.1, (List.exists_mem_cons_iff ..).mp later.2 |>.resolve_left other⟩

theorem MemInfo.scan_total_due {total : ℕ} {found : MemInfo}
    (due : MemLine.Due (line :: lines) "MemTotal:" found.mem_total_kb (Int64.ofInt total))
    (shows : MemLine.Shows (line :: lines) "MemTotal:" total) :
    MemLine.Due lines "MemTotal:" (found.scan line.key (Int64.ofInt line.amount)).mem_total_kb (Int64.ofInt total) := by
  by_cases is : line.key = ascii "MemTotal:"
  · rw [MemInfo.scan, if_pos is]
    exact Or.inl (congrArg (fun amount : ℕ => Int64.ofInt amount) (shows line List.mem_cons_self is))
  · have same : (found.scan line.key (Int64.ofInt line.amount)).mem_total_kb = found.mem_total_kb := by
      rw [MemInfo.scan, if_neg is]
      split <;> rfl
    rw [same]
    exact due.later is

theorem MemInfo.scan_available_due {available : ℕ} {found : MemInfo}
    (due : MemLine.Due (line :: lines) "MemAvailable:" found.mem_available_kb (Int64.ofInt available))
    (shows : MemLine.Shows (line :: lines) "MemAvailable:" available) :
    MemLine.Due lines "MemAvailable:" (found.scan line.key (Int64.ofInt line.amount)).mem_available_kb
      (Int64.ofInt available) := by
  by_cases is : line.key = ascii "MemAvailable:"
  · rw [MemInfo.scan, if_neg (by rw [is]; decide), if_pos is]
    exact Or.inl (congrArg (fun amount : ℕ => Int64.ofInt amount) (shows line List.mem_cons_self is))
  · have same : (found.scan line.key (Int64.ofInt line.amount)).mem_available_kb = found.mem_available_kb := by
      rw [MemInfo.scan, if_neg is]
      split <;> rfl
    rw [same]
    exact due.later is

/-- The loop ends with both amounts, whatever follows the line that shows the second of them. -/
theorem MemInfo.read_lines {total available : ℕ} (total_set : 0 < Int64.ofInt total)
    (available_set : 0 < Int64.ofInt available) (blank : ∀ ch ∈ gap, isspace ch = true)
    (regular : ∀ line ∈ lines, line.Regular) (totals : MemLine.Shows lines "MemTotal:" total)
    (availables : MemLine.Shows lines "MemAvailable:" available) {fuel : ℕ} (enough : lines.length ≤ fuel)
    {found : MemInfo} (total_due : MemLine.Due lines "MemTotal:" found.mem_total_kb (Int64.ofInt total))
    (available_due : MemLine.Due lines "MemAvailable:" found.mem_available_kb (Int64.ofInt available))
    (missing : ¬ (0 < found.mem_total_kb ∧ 0 < found.mem_available_kb)) :
    MemInfo.read fuel (gap ++ (lines.flatMap MemLine.text ++ tail)) found =
      { mem_total_kb := Int64.ofInt total, mem_available_kb := Int64.ofInt available } := by
  induction lines generalizing gap fuel found with
  | nil =>
    obtain known | ⟨-, _, member, -⟩ := total_due
    · obtain known' | ⟨-, _, member, -⟩ := available_due
      · rw [known, known'] at missing
        exact absurd ⟨total_set, available_set⟩ missing
      · cases member
    · cases member
  | cons line lines ih =>
    obtain ⟨fuel, rfl⟩ := Nat.exists_eq_succ_of_ne_zero (Nat.zero_lt_of_lt enough).ne'
    rw [List.forall_mem_cons] at regular
    have total_due' := MemInfo.scan_total_due total_due totals
    have available_due' := MemInfo.scan_available_due available_due availables
    rw [List.flatMap_cons, List.append_assoc, MemInfo.read_line blank regular.1]
    by_cases both : 0 < (found.scan line.key (Int64.ofInt line.amount)).mem_total_kb ∧
        0 < (found.scan line.key (Int64.ofInt line.amount)).mem_available_kb
    · rw [if_pos both]
      have known := total_due'.resolve_right fun later => absurd both.1 (by rw [later.1]; decide)
      have known' := available_due'.resolve_right fun later => absurd both.2 (by rw [later.1]; decide)
      generalize found.scan line.key (Int64.ofInt line.amount) = after at known known'
      cases after
      exact congrArg₂ MemInfo.mk known known'
    · rw [if_neg both]
      have blank : ∀ ch ∈ [newline], isspace ch = true := List.forall_mem_singleton.mpr rfl
      exact ih blank regular.2
        (fun line member => totals line (List.mem_cons_of_mem _ member))
        (fun line member => availables line (List.mem_cons_of_mem _ member)) (Nat.le_of_succ_le_succ enough)
        total_due' available_due' both

theorem ofInt_positive {amount : ℕ} (positive : 0 < amount) (small : amount < 2 ^ 63) : 0 < Int64.ofInt amount := by
  rw [Int64.lt_iff_toInt_lt, Int64.toInt_ofInt_of_le (by omega) (by omega), Int64.toInt_zero]
  exact_mod_cast positive

theorem length_le_text {lines : List MemLine} : lines.length ≤ (lines.flatMap MemLine.text).length := by
  induction lines with
  | nil => exact le_rfl
  | cons line lines ih =>
    rw [List.length_cons, List.flatMap_cons, List.length_append, MemLine.text]
    simp only [List.length_append, List.length_cons]
    omega

/-- What is read of `/proc/meminfo` where lines in any order show both amounts:
exactly these, whatever else the lines show and whatever follows them. -/
theorem read_meminfo_lines (regular : ∀ line ∈ lines, line.Regular) {total available : ℕ} (total_pos : 0 < total)
    (available_pos : 0 < available) (total_shown : ∃ line ∈ lines, line.key = ascii "MemTotal:")
    (available_shown : ∃ line ∈ lines, line.key = ascii "MemAvailable:")
    (totals : MemLine.Shows lines "MemTotal:" total) (availables : MemLine.Shows lines "MemAvailable:" available)
    (tail : Bytes) :
    read_meminfo (lines.flatMap MemLine.text ++ tail) =
      { mem_total_kb := Int64.ofInt total, mem_available_kb := Int64.ofInt available } := by
  obtain ⟨line, member, is⟩ := total_shown
  obtain ⟨line', member', is'⟩ := available_shown
  have total_set := ofInt_positive total_pos (totals line member is ▸ (regular line member).small)
  have available_set := ofInt_positive available_pos (availables line' member' is' ▸ (regular line' member').small)
  have enough : lines.length ≤ (lines.flatMap MemLine.text ++ tail).length + 1 := by
    have least := @length_le_text lines
    rw [List.length_append]
    omega
  have blank : ∀ ch ∈ ([] : Bytes), isspace ch = true := List.forall_mem_nil _
  exact MemInfo.read_lines total_set available_set blank regular totals availables enough
    (Or.inr ⟨rfl, line, member, is⟩) (Or.inr ⟨rfl, line', member', is'⟩) (by decide)

end MemInfo

end SysNetMon
