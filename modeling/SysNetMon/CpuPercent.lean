import Mathlib.Algebra.Order.Field.Rat
import Mathlib.Data.Nat.Cast.Order.Field
import Mathlib.Tactic.Linarith
import Mathlib.Tactic.Positivity

/-!
The processor load that `collect_metrics` computes from two samples, with the
subtractions of `unsigned long long`.
-/

namespace SysNetMon

structure CpuSample where
  idle : UInt64 := 0
  total : UInt64 := 0
  deriving DecidableEq

/-- What the operating system reports: the call of each platform, or a call that
fails. A file `/proc/stat` that cannot be read leaves all counters zero. -/
inductive CpuReport where
  | GetSystemTimes (idle_time kernel_time user_time : UInt64)
  | host_statistics (user system nice idle : UInt32)
  | proc_stat (user nice system idle iowait irq softirq steal : UInt64)
  | failed

def read_cpu_sample : CpuReport → CpuSample
  | .GetSystemTimes idle_time kernel_time user_time => { idle := idle_time, total := kernel_time + user_time }
  | .host_statistics user system nice idle =>
    { idle := idle.toUInt64, total := user.toUInt64 + system.toUInt64 + nice.toUInt64 + idle.toUInt64 }
  | .proc_stat user nice system idle iowait irq softirq steal =>
    { idle := idle + iowait, total := user + nice + system + idle + iowait + irq + softirq + steal }
  | .failed => {}

/-- The load in percent and the sample that is kept for the next time. The
conversions to `double` and the division are exact here. -/
def collect_cpu (previous_cpu : CpuSample) (report : CpuReport) : ℚ × CpuSample :=
  let current_cpu := read_cpu_sample report
  let total_delta := current_cpu.total - previous_cpu.total
  let idle_delta := current_cpu.idle - previous_cpu.idle
  (if previous_cpu.total ≠ 0 ∧ total_delta > 0 then
      100 * ((total_delta - idle_delta).toNat : ℚ) / (total_delta.toNat : ℚ)
    else 0,
    current_cpu)

/-- The idle time is part of the total time. -/
def CpuSample.Consistent (sample : CpuSample) : Prop := sample.idle.toNat ≤ sample.total.toNat

instance (sample : CpuSample) : Decidable sample.Consistent := inferInstanceAs (Decidable (_ ≤ _))

/-- The time that was not idle. -/
def CpuSample.busy (sample : CpuSample) : ℕ := sample.total.toNat - sample.idle.toNat

/-- How two samples follow one another where the load is in range: there is
nothing to compare, or neither part of a growing total fell, or not both parts
of a falling total did. -/
def InStep (previous current : CpuSample) : Prop :=
  previous.total = 0 ∨ current.total = previous.total ∨
    (previous.total.toNat < current.total.toNat ∧ previous.idle.toNat ≤ current.idle.toNat ∧
      previous.busy ≤ current.busy) ∨
    (current.total.toNat < previous.total.toNat ∧
      (previous.idle.toNat ≤ current.idle.toNat ∨ previous.busy ≤ current.busy))

instance (previous current : CpuSample) : Decidable (InStep previous current) := inferInstanceAs (Decidable (_ ∨ _))

/-- A difference is at most what it was taken from unless it wrapped. -/
theorem toNat_sub_le_iff (x y : UInt64) : (x - y).toNat ≤ x.toNat ↔ y.toNat ≤ x.toNat := by
  have boundX := x.toNat_lt
  have boundY := y.toNat_lt
  rw [UInt64.toNat_sub]
  omega

theorem percent_le_iff {part whole : ℕ} (positive : 0 < whole) :
    100 * (part : ℚ) / (whole : ℚ) ≤ 100 ↔ part ≤ whole := by
  rw [div_le_iff₀ (by exact_mod_cast positive), mul_le_mul_iff_right₀ (by norm_num)]
  exact_mod_cast Iff.rfl

/-- Modulo `2 ^ 64`, the idle time changes by at most what the total time does
in three of the six cases: neither difference wraps and the rest of the time did
not fall, only the total's wraps, or both wrap and the rest did not fall. -/
theorem idle_delta_le_iff {previous current : CpuSample} (consistent : previous.Consistent)
    (consistent' : current.Consistent) (set : previous.total ≠ 0) (moved : current.total ≠ previous.total) :
    (current.idle - previous.idle).toNat ≤ (current.total - previous.total).toNat ↔ InStep previous current := by
  have apart : current.total.toNat ≠ previous.total.toNat := fun same => moved (UInt64.toNat_inj.mp same)
  have bound := previous.total.toNat_lt
  have bound' := current.total.toNat_lt
  unfold CpuSample.Consistent at consistent consistent'
  simp only [InStep, CpuSample.busy, set, moved, false_or, UInt64.toNat_sub]
  omega

/-- For consistent samples, the load is a percentage exactly when they are in step. -/
theorem cpu_percent_in_range_iff {previous_cpu : CpuSample} {report : CpuReport} (consistent : previous_cpu.Consistent)
    (consistent' : (read_cpu_sample report).Consistent) :
    (0 ≤ (collect_cpu previous_cpu report).1 ∧ (collect_cpu previous_cpu report).1 ≤ 100) ↔
      InStep previous_cpu (read_cpu_sample report) := by
  generalize is : read_cpu_sample report = current at consistent'
  simp only [collect_cpu, is]
  by_cases set : previous_cpu.total = 0
  · rw [if_neg (fun both => both.1 set)]
    exact iff_of_true ⟨le_rfl, by norm_num⟩ (Or.inl set)
  by_cases still : current.total = previous_cpu.total
  · rw [if_neg (by simp [still])]
    exact iff_of_true ⟨le_rfl, by norm_num⟩ (Or.inr (Or.inl still))
  · have apart : current.total.toNat ≠ previous_cpu.total.toNat := fun same => still (UInt64.toNat_inj.mp same)
    have bound := previous_cpu.total.toNat_lt
    have bound' := current.total.toNat_lt
    have positive : 0 < (current.total - previous_cpu.total).toNat := by
      rw [UInt64.toNat_sub]
      omega
    rw [if_pos ⟨set, UInt64.lt_iff_toNat_lt.mpr positive⟩, percent_le_iff positive, toNat_sub_le_iff,
      idle_delta_le_iff consistent consistent' set still]
    exact and_iff_right (by positivity)

/-- Twenty ticks of fifty spent busy. -/
theorem cpu_percent_in_range_iff_busy :
    0 ≤ (collect_cpu ⟨100, 200⟩ (.proc_stat 90 0 30 110 20 0 0 0)).1 ∧
      (collect_cpu ⟨100, 200⟩ (.proc_stat 90 0 30 110 20 0 0 0)).1 ≤ 100 :=
  (cpu_percent_in_range_iff (by decide) (by decide)).mpr (by decide)

/-- The time spent waiting for input falls by ten ticks while twenty are spent busy: 200 percent. -/
theorem falling_iowait_doubles_load :
    ¬ ∀ first second, (read_cpu_sample first).Consistent → (read_cpu_sample second).Consistent →
      0 ≤ (collect_cpu (read_cpu_sample first) second).1 ∧ (collect_cpu (read_cpu_sample first) second).1 ≤ 100 := by
  intro inRange
  have load : (collect_cpu (read_cpu_sample (.proc_stat 60 0 40 80 20 0 0 0)) (.proc_stat 75 0 45 80 10 0 0 0)).1 =
      200 := by decide +kernel
  have bound := (inRange (.proc_stat 60 0 40 80 20 0 0 0) (.proc_stat 75 0 45 80 10 0 0 0) (by decide) (by decide)).2
  rw [load] at bound
  exact absurd bound (by norm_num)

end SysNetMon
