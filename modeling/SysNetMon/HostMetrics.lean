import SysNetMon.AgentLoop
import SysNetMon.ProcFiles

/-!
The whole of `collect_metrics`: beside the load and the rates the use of memory
and disk, of which each platform asks in its own way.
-/

namespace SysNetMon
open Bytes

/-- What the operating system reports of the memory: the calls of each platform,
or one that fails. A file `/proc/meminfo` that cannot be read is one without text. -/
inductive MemoryReport where
  | GlobalMemoryStatusEx (ullTotalPhys ullAvailPhys : UInt64)
  | host_statistics64 (memory_total_bytes : Int64) (free_count inactive_count : UInt32) (page_size : UInt64)
  | proc_meminfo (text : Bytes)
  | failed

inductive DiskReport where
  | GetDiskFreeSpaceExA (total_bytes free_bytes : UInt64)
  | statvfs (f_blocks f_bavail f_frsize : UInt64)
  | failed

structure HostReport where
  now : Tm
  cpu : CpuReport
  memory : MemoryReport
  disk : DiskReport
  net : NetReport

/-- The fields of a metric about the memory, or about the disk. -/
structure Usage where
  percent : Double := 0
  used_mb : Int64 := 0
  total_mb : Int64 := 0

/-- A quotient of numbers far within the range of `double`. -/
theorem abs_div_le_maxDouble {n d : ℚ} (bound : |n| ≤ 2 ^ 128) (atLeast : 1 / 2 ^ 64 ≤ |d|) : |n / d| ≤ maxDouble := by
  have positive : 0 < |d| := lt_of_lt_of_le (by positivity) atLeast
  have large : (2 : ℚ) ^ 192 ≤ maxDouble := by
    calc (2 : ℚ) ^ 192 ≤ 1 * 2 ^ 971 := by rw [one_mul]; exact pow_le_pow_right₀ (by norm_num) (by norm_num)
      _ ≤ maxDouble := mul_le_mul_of_nonneg_right (by norm_num) (by positivity)
  rw [abs_div, div_le_iff₀ positive]
  calc |n| ≤ 2 ^ 192 * (1 / 2 ^ 64) := bound.trans (by norm_num)
    _ ≤ maxDouble * |d| := mul_le_mul large atLeast (by positivity) (le_trans (by positivity) large)

theorem abs_natCast (n : ℕ) : |(n : ℚ)| = n := abs_of_nonneg n.cast_nonneg

theorem abs_percent_le {used total : ℚ} (bound : |used| ≤ 2 ^ 64) (atLeast : 1 ≤ |total|) :
    |100 * used / total| ≤ maxDouble := by
  refine abs_div_le_maxDouble ?_ (le_trans (by norm_num) atLeast)
  calc |100 * used| = 100 * |used| := by rw [abs_mul, abs_of_pos (by norm_num)]
    _ ≤ 100 * 2 ^ 64 := mul_le_mul_of_nonneg_left bound (by norm_num)
    _ ≤ 2 ^ 128 := by norm_num

theorem toNat_cast_le (x : UInt64) : (x.toNat : ℚ) ≤ 2 ^ 64 := by
  have bound : x.toNat ≤ 2 ^ 64 := x.toNat_lt.le
  exact_mod_cast bound

theorem toInt_cast_le (x : Int64) : |(x.toInt : ℚ)| ≤ 2 ^ 64 := by
  have lower := x.le_toInt
  have upper := x.toInt_lt
  have bound : |x.toInt| ≤ 2 ^ 64 := abs_le.mpr ⟨by omega, by omega⟩
  exact_mod_cast bound

/-- `100.0 * used / total`, exact here, where the total is not zero. -/
def percentOf (used total : UInt64) : Double :=
  if some : 0 < total.toNat then ⟨100 * used.toNat / total.toNat,
    abs_percent_le (by rw [abs_natCast]; exact toNat_cast_le used) (by rw [abs_natCast]; exact_mod_cast some)⟩
  else 0

/-- The same for amounts that have a sign. -/
def signedPercentOf (used total : Int64) : Double :=
  if some : 0 < total.toInt then ⟨100 * used.toInt / total.toInt,
    abs_percent_le (toInt_cast_le used) (le_trans (by exact_mod_cast some) (le_abs_self _))⟩
  else 0

/-- `bytes / (1024ULL * 1024ULL)` as a `long long`. -/
def megabytes (bytes : UInt64) : Int64 := (bytes / (1024 * 1024)).toInt64

def usageOf (used_bytes total_bytes : UInt64) : Usage :=
  { percent := percentOf used_bytes total_bytes
    used_mb := megabytes used_bytes
    total_mb := megabytes total_bytes }

/-- The part of `collect_metrics` about the memory. A difference of signed amounts
that overflows wraps here. -/
def read_memory : MemoryReport → Usage
  | .GlobalMemoryStatusEx ullTotalPhys ullAvailPhys => usageOf (ullTotalPhys - ullAvailPhys) ullTotalPhys
  | .host_statistics64 memory_total_bytes free_count inactive_count page_size =>
    let available_bytes_local := (free_count + inactive_count).toUInt64 * page_size
    let total_bytes_local := memory_total_bytes.toUInt64
    usageOf (if total_bytes_local > available_bytes_local then total_bytes_local - available_bytes_local else 0)
      total_bytes_local
  | .proc_meminfo text =>
    let found := read_meminfo text
    let mem_used_kb := found.mem_total_kb - found.mem_available_kb
    { percent := signedPercentOf mem_used_kb found.mem_total_kb
      used_mb := mem_used_kb / 1024
      total_mb := found.mem_total_kb / 1024 }
  | .failed => {}

/-- The part of `collect_metrics` about the disk. -/
def read_disk : DiskReport → Usage
  | .GetDiskFreeSpaceExA total_bytes free_bytes => usageOf (total_bytes - free_bytes) total_bytes
  | .statvfs f_blocks f_bavail f_frsize =>
    let total_bytes_local := f_blocks * f_frsize
    let available_bytes_local := f_bavail * f_frsize
    usageOf (total_bytes_local - available_bytes_local) total_bytes_local
  | .failed => {}

/-- What `elapsed.count()` is, of a difference of ticks in nanoseconds. -/
def seconds (elapsed : ℤ) : ℚ := elapsed / 10 ^ 9

section Bounds
variable (previous_cpu : CpuSample) (previous_net : NetSample) (elapsed : ℤ)

theorem abs_load_le (cpu : CpuReport) : |(collect_cpu previous_cpu cpu).1| ≤ maxDouble := by
  unfold collect_cpu
  dsimp only
  split
  · rename_i both
    have some : 0 < ((read_cpu_sample cpu).total - previous_cpu.total).toNat := UInt64.lt_iff_toNat_lt.mp both.2
    refine abs_percent_le ?_ ?_
    · rw [abs_natCast]
      exact toNat_cast_le _
    · rw [abs_natCast]
      exact_mod_cast some
  · rw [abs_zero]
    unfold maxDouble
    norm_num

theorem abs_rate_le (bytes : UInt64) {elapsed : ℤ} (positive : 0 < seconds elapsed) :
    |(bytes.toNat : ℚ) / 1024 / seconds elapsed| ≤ maxDouble := by
  have least : 1 ≤ elapsed := by
    by_contra none
    have notPositive : (elapsed : ℚ) ≤ 0 := by exact_mod_cast Int.lt_add_one_iff.mp (not_le.mp none)
    exact absurd positive (not_lt.mpr (div_nonpos_of_nonpos_of_nonneg notPositive (by norm_num)))
  have cast : (1 : ℚ) ≤ elapsed := by exact_mod_cast least
  refine abs_div_le_maxDouble ?_ ?_
  · rw [abs_div, abs_natCast]
    calc (bytes.toNat : ℚ) / |1024| ≤ bytes.toNat := div_le_self bytes.toNat.cast_nonneg (by norm_num)
      _ ≤ 2 ^ 128 := (toNat_cast_le bytes).trans (by norm_num)
  · rw [seconds, abs_of_nonneg (by positivity)]
    calc 1 / 2 ^ 64 ≤ (1 : ℚ) / 10 ^ 9 := by norm_num
      _ ≤ (elapsed : ℚ) / 10 ^ 9 := div_le_div_of_nonneg_right cast (by norm_num)

theorem abs_rates_le (net : NetReport) :
    |(collect_net previous_net net (seconds elapsed)).1.network_rx_kbps| ≤ maxDouble ∧
      |(collect_net previous_net net (seconds elapsed)).1.network_tx_kbps| ≤ maxDouble := by
  unfold collect_net
  dsimp only
  split
  · rename_i both
    exact ⟨abs_rate_le _ both.2, abs_rate_le _ both.2⟩
  · have zero : |(0 : ℚ)| ≤ maxDouble := by
      rw [abs_zero]
      unfold maxDouble
      norm_num
    exact ⟨zero, zero⟩

end Bounds

/-- `collect_metrics` with all the fields of its metric, and the samples that it
leaves for the next call. -/
def MetricSnapshot.collect (host : Bytes) (previous_cpu : CpuSample) (previous_net : NetSample) (elapsed : ℤ)
    (report : HostReport) : MetricSnapshot × CpuSample × NetSample :=
  let memory := read_memory report.memory
  let disk := read_disk report.disk
  ({ host
     timestamp := iso_timestamp report.now
     cpu_percent := ⟨(collect_cpu previous_cpu report.cpu).1, abs_load_le previous_cpu report.cpu⟩
     memory_percent := memory.percent
     disk_percent := disk.percent
     network_rx_kbps := ⟨(collect_net previous_net report.net (seconds elapsed)).1.network_rx_kbps,
      (abs_rates_le previous_net elapsed report.net).1⟩
     network_tx_kbps := ⟨(collect_net previous_net report.net (seconds elapsed)).1.network_tx_kbps,
      (abs_rates_le previous_net elapsed report.net).2⟩
     memory_used_mb := memory.used_mb
     memory_total_mb := memory.total_mb
     disk_used_mb := disk.used_mb
     disk_total_mb := disk.total_mb },
    (collect_cpu previous_cpu report.cpu).2, (collect_net previous_net report.net (seconds elapsed)).2)

/-- What the metric says of load and traffic is what the loop of the agent collects. -/
theorem MetricSnapshot.collect_agrees (host : Bytes) (previous_cpu : CpuSample) (previous_net : NetSample)
    (elapsed : ℤ) (report : HostReport) :
    collect_metrics previous_cpu previous_net (seconds elapsed) report.cpu report.net =
      ({ elapsed_seconds := seconds elapsed
         current_net := (collect host previous_cpu previous_net elapsed report).2.2
         cpu_percent := (collect host previous_cpu previous_net elapsed report).1.cpu_percent.val
         rates :=
          { network_rx_kbps := (collect host previous_cpu previous_net elapsed report).1.network_rx_kbps.val
            network_tx_kbps := (collect host previous_cpu previous_net elapsed report).1.network_tx_kbps.val } },
        (collect host previous_cpu previous_net elapsed report).2.1,
        (collect host previous_cpu previous_net elapsed report).2.2) := rfl

/-- A value between 0 and 100. -/
def Percentage (value : Double) : Prop := 0 ≤ value.val ∧ value.val ≤ 100

/-- A report in which no more is available than there is. -/
def MemoryReport.Consistent : MemoryReport → Prop
  | .GlobalMemoryStatusEx ullTotalPhys ullAvailPhys => ullAvailPhys ≤ ullTotalPhys
  | .host_statistics64 memory_total_bytes free_count inactive_count page_size =>
    (free_count + inactive_count).toUInt64 * page_size ≤ memory_total_bytes.toUInt64
  | .proc_meminfo text => 0 ≤ (read_meminfo text).mem_available_kb ∧
      (read_meminfo text).mem_available_kb ≤ (read_meminfo text).mem_total_kb
  | .failed => True

/-- A report of no memory at all. -/
def MemoryReport.Empty : MemoryReport → Prop
  | .GlobalMemoryStatusEx ullTotalPhys _ => ullTotalPhys = 0
  | .host_statistics64 memory_total_bytes _ _ _ => memory_total_bytes.toUInt64 = 0
  | .proc_meminfo text => (read_meminfo text).mem_total_kb ≤ 0
  | .failed => False

/-- A report for which the code compares the two amounts before it subtracts them. -/
def MemoryReport.Compared : MemoryReport → Prop
  | .host_statistics64 _ _ _ _ => True
  | _ => False

def DiskReport.Consistent : DiskReport → Prop
  | .GetDiskFreeSpaceExA total_bytes free_bytes => free_bytes ≤ total_bytes
  | .statvfs f_blocks f_bavail f_frsize => f_bavail * f_frsize ≤ f_blocks * f_frsize
  | .failed => True

def DiskReport.Empty : DiskReport → Prop
  | .GetDiskFreeSpaceExA total_bytes _ => total_bytes = 0
  | .statvfs f_blocks _ f_frsize => f_blocks * f_frsize = 0
  | .failed => False

section Percent
variable {used total available : UInt64}

theorem percentage_zero : Percentage 0 := ⟨le_rfl, by norm_num [show (0 : Double).val = 0 from rfl]⟩

theorem percentOf_in_range_iff : Percentage (percentOf used total) ↔ total = 0 ∨ used.toNat ≤ total.toNat := by
  rw [percentOf, ← UInt64.toNat_inj, UInt64.toNat_zero]
  by_cases some : 0 < total.toNat
  · rw [dif_pos some, Percentage]
    dsimp only
    rw [percent_le_iff some, or_iff_right some.ne']
    exact and_iff_right (by positivity)
  · rw [dif_neg some]
    exact iff_of_true percentage_zero (Or.inl (Nat.eq_zero_of_not_pos some))

theorem usage_in_range_iff :
    Percentage (percentOf (total - available) total) ↔ total = 0 ∨ available ≤ total := by
  rw [percentOf_in_range_iff, toNat_sub_le_iff, UInt64.le_iff_toNat_le]

theorem signedPercentOf_in_range_iff {total available : Int64} :
    Percentage (signedPercentOf (total - available) total) ↔ total ≤ 0 ∨ 0 ≤ available ∧ available ≤ total := by
  simp only [Int64.le_iff_toInt_le, Int64.toInt_zero]
  rw [signedPercentOf]
  by_cases some : 0 < total.toInt
  · have cast : (0 : ℚ) < total.toInt := by exact_mod_cast some
    rw [dif_pos some, Percentage, or_iff_right (not_le.mpr some)]
    dsimp only
    rw [div_le_iff₀ cast, le_div_iff₀ cast, zero_mul, mul_nonneg_iff_of_pos_left (by norm_num),
      mul_le_mul_iff_right₀ (by norm_num), Int.cast_nonneg_iff, Int.cast_le, Int64.toInt_sub, Int.bmod_def]
    have lower := available.le_toInt
    have upper := available.toInt_lt
    have upper' := total.toInt_lt
    split <;> omega
  · rw [dif_neg some]
    exact iff_of_true percentage_zero (Or.inl (not_lt.mp some))

theorem toInt_megabytes (bytes : UInt64) : (megabytes bytes).toInt = (bytes.toNat / 2 ^ 20 : ℕ) := by
  have bound := bytes.toNat_lt
  have cut : (bytes / (1024 * 1024)).toNat = bytes.toNat / 2 ^ 20 := UInt64.toNat_div _ _
  rw [megabytes, ← UInt64.ofNat_toNat (x := bytes / (1024 * 1024)), UInt64.toInt64_ofNat', cut,
    Int64.toInt_ofNat_of_lt (by omega)]

theorem megabytes_mono (le : used.toNat ≤ total.toNat) : 0 ≤ megabytes used ∧ megabytes used ≤ megabytes total := by
  simp only [Int64.le_iff_toInt_le, Int64.toInt_zero, toInt_megabytes, Int.natCast_nonneg, true_and, Nat.cast_le]
  exact Nat.div_le_div_right le

theorem toInt_div_1024 (amount : Int64) (nonneg : 0 ≤ amount) : (amount / 1024).toInt = amount.toInt / 1024 := by
  rw [Int64.le_iff_toInt_le, Int64.toInt_zero] at nonneg
  rw [Int64.toInt_div_of_ne_right _ _ (by decide), Int.tdiv_eq_ediv_of_nonneg nonneg]
  rfl

/-- No overflow where no more is available than there is. -/
theorem toInt_used {total available : Int64} (nonneg : 0 ≤ available) (le : available ≤ total) :
    (total - available).toInt = total.toInt - available.toInt := by
  rw [Int64.le_iff_toInt_le, Int64.toInt_zero] at nonneg
  rw [Int64.le_iff_toInt_le] at le
  have upper := total.toInt_lt
  rw [Int64.toInt_sub, Int.bmod_eq_of_le (by omega) (by omega)]

end Percent

/-- What is used of a memory that is compared with what is available. -/
theorem compared_used_le (total available : UInt64) :
    (if total > available then total - available else 0).toNat ≤ total.toNat := by
  split
  · rename_i more
    exact (toNat_sub_le_iff _ _).mpr (UInt64.lt_iff_toNat_lt.mp more).le
  · exact Nat.zero_le _

/-- The percentage of a report about memory is one exactly where the report is
consistent, or says that there is nothing, or is compared. -/
theorem read_memory_in_range_iff (report : MemoryReport) :
    Percentage (read_memory report).percent ↔ report.Empty ∨ report.Consistent ∨ report.Compared := by
  cases report with
  | GlobalMemoryStatusEx ullTotalPhys ullAvailPhys =>
    refine usage_in_range_iff.trans (or_congr_right ?_)
    exact (or_iff_left id).symm
  | host_statistics64 memory_total_bytes free_count inactive_count page_size =>
    exact iff_of_true (percentOf_in_range_iff.mpr (Or.inr (compared_used_le _ _))) (Or.inr (Or.inr trivial))
  | proc_meminfo text =>
    refine signedPercentOf_in_range_iff.trans (or_congr_right ?_)
    exact (or_iff_left id).symm
  | failed => exact iff_of_true percentage_zero (Or.inr (Or.inl trivial))

theorem read_disk_in_range_iff (report : DiskReport) :
    Percentage (read_disk report).percent ↔ report.Empty ∨ report.Consistent := by
  cases report with
  | GetDiskFreeSpaceExA total_bytes free_bytes => exact usage_in_range_iff
  | statvfs f_blocks f_bavail f_frsize => exact usage_in_range_iff
  | failed => exact iff_of_true percentage_zero (Or.inr trivial)

theorem read_memory_mb {report : MemoryReport} (sound : report.Consistent ∨ report.Compared) :
    0 ≤ (read_memory report).used_mb ∧ (read_memory report).used_mb ≤ (read_memory report).total_mb := by
  cases report with
  | GlobalMemoryStatusEx ullTotalPhys ullAvailPhys =>
    have consistent : ullAvailPhys ≤ ullTotalPhys := sound.resolve_right id
    exact megabytes_mono ((toNat_sub_le_iff _ _).mpr (UInt64.le_iff_toNat_le.mp consistent))
  | host_statistics64 memory_total_bytes free_count inactive_count page_size =>
    exact megabytes_mono (compared_used_le _ _)
  | proc_meminfo text =>
    obtain ⟨nonneg, le⟩ := sound.resolve_right id
    have used := toInt_used nonneg le
    rw [Int64.le_iff_toInt_le, Int64.toInt_zero] at nonneg
    rw [Int64.le_iff_toInt_le] at le
    have used_nonneg : 0 ≤ (read_meminfo text).mem_total_kb - (read_meminfo text).mem_available_kb := by
      rw [Int64.le_iff_toInt_le, Int64.toInt_zero, used]
      omega
    have total_nonneg : 0 ≤ (read_meminfo text).mem_total_kb := by
      rw [Int64.le_iff_toInt_le, Int64.toInt_zero]
      omega
    rw [read_memory]
    dsimp only
    rw [Int64.le_iff_toInt_le, Int64.le_iff_toInt_le, toInt_div_1024 _ used_nonneg, toInt_div_1024 _ total_nonneg, used,
      Int64.toInt_zero]
    omega
  | failed => exact ⟨Int64.le_refl 0, Int64.le_refl 0⟩

theorem read_disk_mb {report : DiskReport} (consistent : report.Consistent) :
    0 ≤ (read_disk report).used_mb ∧ (read_disk report).used_mb ≤ (read_disk report).total_mb := by
  cases report with
  | GetDiskFreeSpaceExA total_bytes free_bytes =>
    exact megabytes_mono ((toNat_sub_le_iff _ _).mpr (UInt64.le_iff_toNat_le.mp consistent))
  | statvfs f_blocks f_bavail f_frsize =>
    exact megabytes_mono ((toNat_sub_le_iff _ _).mpr (UInt64.le_iff_toNat_le.mp consistent))
  | failed => exact ⟨Int64.le_refl 0, Int64.le_refl 0⟩

/-- Whatever the platform, the uses of memory and disk in a metric are percentages
exactly where the reports are consistent or empty, or the two amounts of memory are
compared before they are subtracted; and but for empty reports the use in megabytes
is then between nothing and the whole. -/
theorem collected_usage_in_range_iff (host : Bytes) (previous_cpu : CpuSample) (previous_net : NetSample)
    (elapsed : ℤ) (report : HostReport) :
    (Percentage (MetricSnapshot.collect host previous_cpu previous_net elapsed report).1.memory_percent ↔
        report.memory.Empty ∨ report.memory.Consistent ∨ report.memory.Compared) ∧
      (Percentage (MetricSnapshot.collect host previous_cpu previous_net elapsed report).1.disk_percent ↔
        report.disk.Empty ∨ report.disk.Consistent) ∧
      (report.memory.Consistent ∨ report.memory.Compared →
        0 ≤ (MetricSnapshot.collect host previous_cpu previous_net elapsed report).1.memory_used_mb ∧
          (MetricSnapshot.collect host previous_cpu previous_net elapsed report).1.memory_used_mb ≤
            (MetricSnapshot.collect host previous_cpu previous_net elapsed report).1.memory_total_mb) ∧
      (report.disk.Consistent →
        0 ≤ (MetricSnapshot.collect host previous_cpu previous_net elapsed report).1.disk_used_mb ∧
          (MetricSnapshot.collect host previous_cpu previous_net elapsed report).1.disk_used_mb ≤
            (MetricSnapshot.collect host previous_cpu previous_net elapsed report).1.disk_total_mb) :=
  ⟨read_memory_in_range_iff report.memory, read_disk_in_range_iff report.disk, read_memory_mb, read_disk_mb⟩

/-- What an agent on Linux makes of `/proc/meminfo`, for lines in any order and
anything after them: the exact use of memory. -/
theorem memory_of_meminfo_lines {lines : List MemLine} (regular : ∀ line ∈ lines, line.Regular) {total available : ℕ}
    (available_pos : 0 < available) (available_le : available ≤ total)
    (total_shown : ∃ line ∈ lines, line.key = ascii "MemTotal:")
    (available_shown : ∃ line ∈ lines, line.key = ascii "MemAvailable:")
    (totals : MemLine.Shows lines "MemTotal:" total) (availables : MemLine.Shows lines "MemAvailable:" available)
    (tail : Bytes) :
    let usage := read_memory (.proc_meminfo (lines.flatMap MemLine.text ++ tail))
    usage.percent.val = 100 * (total - available) / total ∧
      usage.used_mb.toInt = (total - available : ℕ) / 1024 ∧ usage.total_mb.toInt = (total : ℕ) / 1024 := by
  have found := read_meminfo_lines regular (available_pos.trans_le available_le) available_pos total_shown
    available_shown totals availables tail
  obtain ⟨line, member, is⟩ := total_shown
  have small : total < 2 ^ 63 := totals line member is ▸ (regular line member).small
  have total_int : (Int64.ofInt total).toInt = total := Int64.toInt_ofInt_of_le (by omega) (by omega)
  have available_int : (Int64.ofInt available).toInt = available := Int64.toInt_ofInt_of_le (by omega) (by omega)
  have nonneg : 0 ≤ Int64.ofInt available := by
    rw [Int64.le_iff_toInt_le, Int64.toInt_zero, available_int]
    omega
  have le : Int64.ofInt available ≤ Int64.ofInt total := by
    rw [Int64.le_iff_toInt_le, total_int, available_int]
    exact_mod_cast available_le
  have used := toInt_used nonneg le
  have used_nonneg : 0 ≤ Int64.ofInt total - Int64.ofInt available := by
    rw [Int64.le_iff_toInt_le, Int64.toInt_zero, used, total_int, available_int]
    omega
  have some : 0 < (Int64.ofInt total).toInt := by
    rw [total_int]
    omega
  dsimp only [read_memory]
  rw [found]
  dsimp only
  refine ⟨?_, ?_, ?_⟩
  · rw [signedPercentOf, dif_pos some]
    dsimp only
    rw [used, total_int, available_int, Int.cast_sub, Int.cast_natCast, Int.cast_natCast]
  · rw [toInt_div_1024 _ used_nonneg, used, total_int, available_int]
    omega
  · rw [toInt_div_1024 _ (Int64.le_trans nonneg le), total_int]

theorem memory_of_meminfo_lines_three :
    let usage := read_memory (.proc_meminfo
      ([⟨ascii "MemTotal:", 3, 4096, ascii "kB"⟩, ⟨ascii "MemFree:", 1, 7, ascii "kB"⟩,
        ⟨ascii "MemAvailable:", 1, 1024, ascii "kB"⟩].flatMap MemLine.text ++ ascii "HugePages_Total: 0"))
    usage.percent.val = 100 * ((4096 : ℕ) - (1024 : ℕ)) / (4096 : ℕ) ∧
      usage.used_mb.toInt = (4096 - 1024 : ℕ) / 1024 ∧ usage.total_mb.toInt = (4096 : ℕ) / 1024 := by
  refine memory_of_meminfo_lines ?_ (by decide) (by decide) ?_ ?_ ?_ ?_ _
  · decide +kernel
  · exact ⟨_, List.mem_cons_self, rfl⟩
  · exact ⟨_, List.mem_cons_of_mem _ (List.mem_cons_of_mem _ List.mem_cons_self), rfl⟩
  · unfold MemLine.Shows
    decide
  · unfold MemLine.Shows
    decide

end SysNetMon
