import SysNetMon.Common
import SysNetMon.CpuPercent
import SysNetMon.Text.Framing

/-!
The network rates that `collect_metrics` computes from two samples, and the
sums over the interfaces that the samples are.
-/

namespace SysNetMon
open Bytes Decimal

@[ext]
structure NetSample where
  rx_bytes : UInt64 := 0
  tx_bytes : UInt64 := 0
  deriving DecidableEq

/-- A row of the table of `GetIfTable`. -/
structure IfRow where
  dwType : UInt32
  dwInOctets : UInt32
  dwOutOctets : UInt32

/-- An entry of the list of `getifaddrs`, whose address and data can be absent. -/
structure IfAddrs where
  sa_family : Option UInt8
  ifa_flags : UInt32
  ifa_data : Option (UInt32 × UInt32)

/-- What the operating system reports: the call of each platform, or a call that
fails. A file `/proc/net/dev` that cannot be read is one without text. -/
inductive NetReport where
  | GetIfTable (table : List IfRow)
  | getifaddrs (interfaces : List IfAddrs)
  | proc_net_dev (text : Bytes)
  | failed

def IF_TYPE_SOFTWARE_LOOPBACK : UInt32 := 24

def AF_LINK : UInt8 := 18

def IFF_LOOPBACK : UInt32 := 8

def NetSample.add (sample : NetSample) (rx_bytes tx_bytes : UInt64) : NetSample :=
  { rx_bytes := sample.rx_bytes + rx_bytes, tx_bytes := sample.tx_bytes + tx_bytes }

def addRow (sample : NetSample) (row : IfRow) : NetSample :=
  if row.dwType = IF_TYPE_SOFTWARE_LOOPBACK then sample
  else sample.add row.dwInOctets.toUInt64 row.dwOutOctets.toUInt64

def addEntry (sample : NetSample) (entry : IfAddrs) : NetSample :=
  match entry.sa_family, entry.ifa_data with
  | some sa_family, some (ifi_ibytes, ifi_obytes) =>
    if sa_family ≠ AF_LINK then sample
    else if entry.ifa_flags &&& IFF_LOOPBACK ≠ 0 then sample
    else sample.add ifi_ibytes.toUInt64 ifi_obytes.toUInt64
  | _, _ => sample

/-- The lines that repeated calls of `std::getline` read. -/
def getlines (text : Bytes) : List Bytes :=
  let pieces := text.splitOn newline
  if pieces.getLast? = some [] then pieces.dropLast else pieces

/-- The extraction of an `unsigned long long` from a stream: its value, and what
is left of the stream unless the extraction failed. -/
def extract (stream : Bytes) : UInt64 × Option Bytes :=
  let text := stream.dropWhile isspace
  let negative := text.head? = some 45
  let numeral := if negative ∨ text.head? = some 43 then text.drop 1 else text
  let digits := numeral.takeWhile isdigit
  if digits = [] then (0, none)
  else if readNat digits < 2 ^ 64 then
    let value := UInt64.ofNat (readNat digits)
    (if negative then -value else value, some (numeral.dropWhile isdigit))
  else (UInt64.ofNat (2 ^ 64 - 1), none)

/-- Consecutive extractions into variables that were zero. A failed extraction
makes the later ones leave their variables alone. -/
def extractions : ℕ → Option Bytes → List UInt64
  | 0, _ => []
  | count + 1, some stream => (extract stream).1 :: extractions count (extract stream).2
  | count + 1, none => 0 :: extractions count none

/-- A line of `/proc/net/dev`: of its sixteen counters the first and the ninth are added. -/
def addLine (sample : NetSample) (line : Bytes) : NetSample :=
  match Framing.cut colon line with
  | none => sample
  | some (interface_name, rest) =>
    if trim interface_name = ascii "lo" then sample
    else
      let values := extractions 16 (some rest)
      sample.add (values.getD 0 0) (values.getD 8 0)

def read_net_sample : NetReport → NetSample
  | .GetIfTable table => table.foldl addRow {}
  | .getifaddrs interfaces => interfaces.foldl addEntry {}
  | .proc_net_dev text => ((getlines text).drop 2).foldl addLine {}
  | .failed => {}

structure NetRates where
  network_rx_kbps : ℚ := 0
  network_tx_kbps : ℚ := 0
  deriving DecidableEq

/-- The rates in KB per second and the sample that is kept for the next time. The
conversions to `double` and the divisions are exact here. -/
def collect_net (previous_net : NetSample) (report : NetReport) (elapsed_seconds : ℚ) : NetRates × NetSample :=
  let current_net := read_net_sample report
  (if previous_net.rx_bytes ≠ 0 ∧ elapsed_seconds > 0 then
      let rx_delta : ℚ := (current_net.rx_bytes - previous_net.rx_bytes).toNat
      let tx_delta : ℚ := (current_net.tx_bytes - previous_net.tx_bytes).toNat
      { network_rx_kbps := rx_delta / 1024 / elapsed_seconds
        network_tx_kbps := tx_delta / 1024 / elapsed_seconds }
    else {},
    current_net)

/-- Without a previous count of received bytes both rates are zero. -/
theorem collect_net_unset {previous_net : NetSample} (unset : previous_net.rx_bytes = 0) (report : NetReport)
    (elapsed_seconds : ℚ) : (collect_net previous_net report elapsed_seconds).1 = {} :=
  if_neg fun both => both.1 unset

theorem collect_net_set {previous_net : NetSample} (set : previous_net.rx_bytes ≠ 0) (report : NetReport)
    {elapsed_seconds : ℚ} (positive : 0 < elapsed_seconds) :
    (collect_net previous_net report elapsed_seconds).1 =
      { network_rx_kbps :=
          ((read_net_sample report).rx_bytes - previous_net.rx_bytes).toNat / 1024 / elapsed_seconds
        network_tx_kbps :=
          ((read_net_sample report).tx_bytes - previous_net.tx_bytes).toNat / 1024 / elapsed_seconds } :=
  if_pos ⟨set, positive⟩

/-- Neither counter of `current` is below that of `previous`. -/
def NetSample.Advances (previous current : NetSample) : Prop :=
  previous.rx_bytes.toNat ≤ current.rx_bytes.toNat ∧ previous.tx_bytes.toNat ≤ current.tx_bytes.toNat

instance (previous current : NetSample) : Decidable (previous.Advances current) := inferInstanceAs (Decidable (_ ∧ _))

/-- A rate that the bytes counted so far account for. -/
def RateInRange (rate : ℚ) (current : UInt64) (elapsed_seconds : ℚ) : Prop :=
  0 ≤ rate ∧ rate ≤ (current.toNat : ℚ) / 1024 / elapsed_seconds

/-- The rate of a counter that went backwards, from a difference that wrapped. -/
def RateWrapped (rate : ℚ) (previous current : UInt64) (elapsed_seconds : ℚ) : Prop :=
  current.toNat < previous.toNat ∧
    rate = ((current.toNat + 2 ^ 64 - previous.toNat : ℕ) : ℚ) / 1024 / elapsed_seconds

/-- What is expected of the rates between two samples. -/
def NetRates.Sound (rates : NetRates) (previous current : NetSample) (elapsed_seconds : ℚ) : Prop :=
  (RateInRange rates.network_rx_kbps current.rx_bytes elapsed_seconds ∧
      RateInRange rates.network_tx_kbps current.tx_bytes elapsed_seconds) ∧
    ¬ RateWrapped rates.network_rx_kbps previous.rx_bytes current.rx_bytes elapsed_seconds ∧
    ¬ RateWrapped rates.network_tx_kbps previous.tx_bytes current.tx_bytes elapsed_seconds

section Rate
variable {previous current : UInt64} {elapsed_seconds : ℚ}

theorem rate_le_rate_iff {bytes bytes' : ℕ} (positive : 0 < elapsed_seconds) :
    (bytes : ℚ) / 1024 / elapsed_seconds ≤ (bytes' : ℚ) / 1024 / elapsed_seconds ↔ bytes ≤ bytes' := by
  rw [div_le_div_iff_of_pos_right positive, div_le_div_iff_of_pos_right (by norm_num)]
  exact_mod_cast Iff.rfl

theorem rate_nonneg (bytes : ℕ) (positive : 0 < elapsed_seconds) : 0 ≤ (bytes : ℚ) / 1024 / elapsed_seconds := by
  positivity

/-- The rate of a difference is in range unless the difference wrapped. -/
theorem rateInRange_iff (positive : 0 < elapsed_seconds) :
    RateInRange (((current - previous).toNat : ℚ) / 1024 / elapsed_seconds) current elapsed_seconds ↔
      previous.toNat ≤ current.toNat := by
  rw [RateInRange, rate_le_rate_iff positive, toNat_sub_le_iff]
  exact and_iff_right (rate_nonneg _ positive)

/-- No rate at all is in range, and is not that of a wrapped difference. -/
theorem rateInRange_zero (positive : 0 < elapsed_seconds) : RateInRange 0 current elapsed_seconds :=
  ⟨le_rfl, rate_nonneg _ positive⟩

theorem not_rateWrapped_zero (positive : 0 < elapsed_seconds) : ¬ RateWrapped 0 previous current elapsed_seconds := by
  rintro ⟨-, is⟩
  have bytes : ((current.toNat + 2 ^ 64 - previous.toNat : ℕ) : ℚ) / 1024 / elapsed_seconds ≤
      ((0 : ℕ) : ℚ) / 1024 / elapsed_seconds := by
    rw [← is]
    simp
  rw [rate_le_rate_iff positive] at bytes
  have bound := previous.toNat_lt
  omega

end Rate

/-- Between two samples the rates are sound exactly when there is no previous
count of received bytes or neither counter went backwards. -/
theorem net_rates_sound_iff (previous_net : NetSample) (report : NetReport) {elapsed_seconds : ℚ}
    (positive : 0 < elapsed_seconds) :
    (collect_net previous_net report elapsed_seconds).1.Sound previous_net (read_net_sample report) elapsed_seconds ↔
      previous_net.rx_bytes = 0 ∨ previous_net.Advances (read_net_sample report) := by
  by_cases unset : previous_net.rx_bytes = 0
  · rw [collect_net_unset unset]
    exact iff_of_true ⟨⟨rateInRange_zero positive, rateInRange_zero positive⟩, not_rateWrapped_zero positive,
      not_rateWrapped_zero positive⟩ (Or.inl unset)
  · rw [collect_net_set unset report positive, or_iff_right unset]
    dsimp only [NetRates.Sound, NetSample.Advances]
    rw [rateInRange_iff positive, rateInRange_iff positive]
    exact ⟨And.left, fun advances => ⟨advances, fun wrapped => absurd wrapped.1 (Nat.not_lt.mpr advances.1),
      fun wrapped => absurd wrapped.1 (Nat.not_lt.mpr advances.2)⟩⟩

theorem net_rates_sound_iff_second_interface :
    (collect_net ⟨1024, 512⟩ (.GetIfTable [⟨6, 1024, 512⟩, ⟨24, 99, 99⟩, ⟨71, 2048, 0⟩]) 2).1.Sound ⟨1024, 512⟩
      (read_net_sample (.GetIfTable [⟨6, 1024, 512⟩, ⟨24, 99, 99⟩, ⟨71, 2048, 0⟩])) 2 :=
  (net_rates_sound_iff _ _ (by norm_num)).mpr (by decide)

/-- An interface is gone at the second reading, and what it had counted with it:
the difference wraps in 64 bits. -/
theorem removed_interface_wraps_rate :
    ¬ ∀ first second : NetReport, ∀ elapsed_seconds : ℚ, 0 < elapsed_seconds →
      (collect_net (read_net_sample first) second elapsed_seconds).1.Sound (read_net_sample first)
        (read_net_sample second) elapsed_seconds := by
  intro sound
  let heading := ascii "Inter-| Receive | Transmit\n face | bytes | bytes\n"
  let eth0 := ascii " eth0: 3000 9 0 0 0 0 0 0 1000 4 0 0 0 0 0 0\n"
  let wlan0 := ascii "wlan0: 4000 7 0 0 0 0 0 0 2000 6 0 0 0 0 0 0\n"
  have both := sound (.proc_net_dev (heading ++ eth0 ++ wlan0)) (.proc_net_dev (heading ++ eth0)) 1 (by norm_num)
  exact absurd both.1.1.2 (by decide +kernel)

end SysNetMon
