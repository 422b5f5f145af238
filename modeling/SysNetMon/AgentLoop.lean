import SysNetMon.NetRates
import SysNetMon.Transition

/-!
The main loop of the agent: the samples and the tick that it carries through its
connections, and the traffic that its metrics add up to.
-/

namespace SysNetMon

/-- What a call of `collect_metrics` is made with and what it reports: its
elapsed time, its sample of the counters, the load and the rates. -/
structure Collected where
  elapsed_seconds : ℚ
  current_net : NetSample
  cpu_percent : ℚ
  rates : NetRates

/-- Where `main` stands: at the head of the outer loop, in `connect_to_server`, at
the head of the inner loop, in the body of the inner loop, or past both loops. -/
inductive LoopPoint where
  | outer
  | connecting
  | inner
  | collecting
  | stopped
  deriving DecidableEq

/-- The variables of `main`. A tick is in seconds. -/
structure AgentMain where
  previous_cpu : CpuSample
  previous_net : NetSample
  previous_tick : ℚ
  g_running : Bool := true
  point : LoopPoint := .outer

/-- The state in which the loops are entered. -/
def AgentMain.enter (cpu : CpuReport) (net : NetReport) (tick : ℚ) : AgentMain :=
  { previous_cpu := read_cpu_sample cpu, previous_net := read_net_sample net, previous_tick := tick }

/-- `collect_metrics`, as far as it depends on the samples before. -/
def collect_metrics (previous_cpu : CpuSample) (previous_net : NetSample) (elapsed_seconds : ℚ) (cpu : CpuReport)
    (net : NetReport) : Collected × CpuSample × NetSample :=
  let (cpu_percent, current_cpu) := collect_cpu previous_cpu cpu
  let (rates, current_net) := collect_net previous_net net elapsed_seconds
  ({ elapsed_seconds, current_net, cpu_percent, rates }, current_cpu, current_net)

/-- The body of the inner loop. `sent` is what `send_line` returns. -/
def AgentMain.collect (agent : AgentMain) (current_tick : ℚ) (cpu : CpuReport) (net : NetReport) (sent : Bool) :
    Collected × AgentMain :=
  let elapsed := current_tick - agent.previous_tick
  let (collected, previous_cpu, previous_net) :=
    collect_metrics agent.previous_cpu agent.previous_net elapsed cpu net
  (collected,
    { agent with
      previous_cpu
      previous_net
      previous_tick := current_tick
      point := if sent then .inner else .outer })

/-- The steps of `main`, with the metrics that they collect. A signal can arrive at any point. -/
inductive AgentStep : AgentMain → List Collected → AgentMain → Prop
  | signal {agent} : AgentStep agent [] { agent with g_running := false }
  | outer {agent} : agent.point = .outer →
      AgentStep agent [] { agent with point := if agent.g_running then .connecting else .stopped }
  | connect {agent} (connected : Bool) : agent.point = .connecting →
      AgentStep agent [] { agent with point := if connected then .inner else .outer }
  | inner {agent} : agent.point = .inner →
      AgentStep agent [] { agent with point := if agent.g_running then .collecting else .outer }
  | collect {agent} (current_tick : ℚ) (cpu : CpuReport) (net : NetReport) (sent : Bool) :
      agent.point = .collecting →
      AgentStep agent [(agent.collect current_tick cpu net sent).1] (agent.collect current_tick cpu net sent).2

/-- The runs of the loops from the first samples. -/
abbrev AgentRun (cpu : CpuReport) (net : NetReport) (tick : ℚ) : AgentMain → List Collected → Prop :=
  LoggedRun (AgentMain.enter cpu net tick) AgentStep

/-- The bytes that a rate stands for. -/
def bytesOf (rate elapsed_seconds : ℚ) : ℚ := rate * elapsed_seconds * 1024

def received (log : List Collected) : ℚ :=
  (log.map fun collected => bytesOf collected.rates.network_rx_kbps collected.elapsed_seconds).sum

def transmitted (log : List Collected) : ℚ :=
  (log.map fun collected => bytesOf collected.rates.network_tx_kbps collected.elapsed_seconds).sum

/-- The last sample taken, which is the first one before any other. -/
def lastSample (first : NetSample) (log : List Collected) : NetSample :=
  (log.map Collected.current_net).getLastD first

/-- Every byte between the first and the last sample is in the metrics once. -/
def TrafficAccounted (first : NetSample) (log : List Collected) : Prop :=
  received log = (lastSample first log).rx_bytes.toNat - first.rx_bytes.toNat ∧
    transmitted log = (lastSample first log).tx_bytes.toNat - first.tx_bytes.toNat

/-- Time passes between the samples and no counter decreases. -/
structure Orderly (first : NetSample) (log : List Collected) : Prop where
  positive : ∀ collected ∈ log, 0 < collected.elapsed_seconds
  advances : (first :: log.map Collected.current_net).IsChain NetSample.Advances

/-- What the metrics have added up to, by the counts of the first sample: all, or
nothing so far, or less than there is. -/
structure Ledger (first : NetSample) (agent : AgentMain) (log : List Collected) : Prop where
  complete : first.rx_bytes ≠ 0 → agent.previous_net.rx_bytes ≠ 0 ∧
    received log = agent.previous_net.rx_bytes.toNat - first.rx_bytes.toNat ∧
    transmitted log = agent.previous_net.tx_bytes.toNat - first.tx_bytes.toNat
  silent : agent.previous_net.rx_bytes = 0 → received log = 0 ∧ transmitted log = 0
  short : first.rx_bytes = 0 → agent.previous_net.rx_bytes ≠ 0 → received log < agent.previous_net.rx_bytes.toNat

section Collect
variable {first previous_net : NetSample} {net : NetReport} {elapsed_seconds : ℚ} {collected : Collected}
  {log : List Collected}

/-- A rate of a difference stands for the difference. -/
theorem bytesOf_rate (bytes : ℚ) (positive : 0 < elapsed_seconds) :
    bytesOf (bytes / 1024 / elapsed_seconds) elapsed_seconds = bytes := by
  rw [bytesOf, div_mul_cancel₀ _ positive.ne', div_mul_cancel₀ _ (by norm_num)]

theorem bytesOf_unset (unset : previous_net.rx_bytes = 0) :
    bytesOf (collect_net previous_net net elapsed_seconds).1.network_rx_kbps elapsed_seconds = 0 ∧
      bytesOf (collect_net previous_net net elapsed_seconds).1.network_tx_kbps elapsed_seconds = 0 := by
  rw [collect_net_unset unset]
  simp [bytesOf]

theorem toNat_delta {previous current : UInt64} (advances : previous.toNat ≤ current.toNat) :
    ((current - previous).toNat : ℚ) = current.toNat - previous.toNat := by
  rw [UInt64.toNat_sub_of_le _ _ (UInt64.le_iff_toNat_le.mpr advances), Nat.cast_sub advances]

theorem bytesOf_set (set : previous_net.rx_bytes ≠ 0) (positive : 0 < elapsed_seconds)
    (advances : previous_net.Advances (read_net_sample net)) :
    bytesOf (collect_net previous_net net elapsed_seconds).1.network_rx_kbps elapsed_seconds =
        (read_net_sample net).rx_bytes.toNat - previous_net.rx_bytes.toNat ∧
      bytesOf (collect_net previous_net net elapsed_seconds).1.network_tx_kbps elapsed_seconds =
        (read_net_sample net).tx_bytes.toNat - previous_net.tx_bytes.toNat := by
  rw [collect_net_set set net positive, bytesOf_rate _ positive, bytesOf_rate _ positive, toNat_delta advances.1,
    toNat_delta advances.2]
  exact ⟨rfl, rfl⟩

theorem received_append : received (log ++ [collected]) =
    received log + bytesOf collected.rates.network_rx_kbps collected.elapsed_seconds := by
  simp [received]

theorem transmitted_append : transmitted (log ++ [collected]) =
    transmitted log + bytesOf collected.rates.network_tx_kbps collected.elapsed_seconds := by
  simp [transmitted]

theorem lastSample_append : lastSample first (log ++ [collected]) = collected.current_net := by
  simp [lastSample]

theorem Orderly.of_append (orderly : Orderly first (log ++ [collected])) :
    Orderly first log ∧ 0 < collected.elapsed_seconds ∧
      (lastSample first log).Advances collected.current_net := by
  obtain ⟨positive, advances⟩ := orderly
  rw [List.map_append, ← List.cons_append, List.isChain_append] at advances
  obtain ⟨before, -, next⟩ := advances
  refine ⟨⟨fun other member => positive other (List.mem_append_left _ member), before⟩,
    positive collected (List.mem_append_right _ List.mem_cons_self), ?_⟩
  exact next _ (by rw [lastSample, List.getLast?_cons, List.getLastD_eq_getLast?]; rfl) _ rfl

end Collect

section Run
variable {firstCpu : CpuReport} {firstNet : NetReport} {firstTick : ℚ} {agent after : AgentMain}
  {log entries : List Collected}

section Fields
variable (current_tick : ℚ) (cpu : CpuReport) (net : NetReport) (sent : Bool)

@[simp] theorem AgentMain.collect_elapsed_seconds :
    (agent.collect current_tick cpu net sent).1.elapsed_seconds = current_tick - agent.previous_tick := rfl

@[simp] theorem AgentMain.collect_current_net :
    (agent.collect current_tick cpu net sent).1.current_net = read_net_sample net := rfl

@[simp] theorem AgentMain.collect_rates : (agent.collect current_tick cpu net sent).1.rates =
    (collect_net agent.previous_net net (current_tick - agent.previous_tick)).1 := rfl

@[simp] theorem AgentMain.collect_previous_net :
    (agent.collect current_tick cpu net sent).2.previous_net = read_net_sample net := rfl

end Fields

/-- A step keeps the sample, or makes one call of `collect_metrics`. -/
theorem AgentStep.cases (one : AgentStep agent entries after) :
    (entries = [] ∧ after.previous_net = agent.previous_net) ∨
      ∃ current_tick cpu net sent, entries = [(agent.collect current_tick cpu net sent).1] ∧
        after = (agent.collect current_tick cpu net sent).2 := by
  cases one with
  | collect current_tick cpu net sent _ => exact Or.inr ⟨current_tick, cpu, net, sent, rfl, rfl⟩
  | _ => exact Or.inl ⟨rfl, rfl⟩

/-- The sample that `main` carries is the last one taken. -/
theorem AgentRun.previous_net_eq (run : AgentRun firstCpu firstNet firstTick agent log) :
    agent.previous_net = lastSample (read_net_sample firstNet) log := by
  refine run.invariant (fun agent log => agent.previous_net = lastSample (read_net_sample firstNet) log) rfl ?_
  intro before after log entries _ ih one
  rcases one.cases with ⟨rfl, same⟩ | ⟨current_tick, cpu, net, sent, rfl, rfl⟩
  · rw [List.append_nil, same, ih]
  · rw [lastSample_append, AgentMain.collect_previous_net, AgentMain.collect_current_net]

theorem Ledger.enter (cpu : CpuReport) (net : NetReport) (tick : ℚ) :
    Ledger (read_net_sample net) (.enter cpu net tick) [] where
  complete set := ⟨set, (sub_self _).symm, (sub_self _).symm⟩
  silent _ := ⟨rfl, rfl⟩
  short unset set := absurd unset set

/-- One call of `collect_metrics` keeps the ledger. -/
theorem Ledger.collect {first : NetSample} (ledger : Ledger first agent log) (current_tick : ℚ) (cpu : CpuReport)
    (net : NetReport) (sent : Bool) (positive : 0 < current_tick - agent.previous_tick)
    (advances : agent.previous_net.Advances (read_net_sample net)) :
    Ledger first (agent.collect current_tick cpu net sent).2
      (log ++ [(agent.collect current_tick cpu net sent).1]) := by
  have grown : agent.previous_net.rx_bytes ≠ 0 → (read_net_sample net).rx_bytes ≠ 0 := by
    simp only [ne_eq, ← UInt64.toNat_inj, UInt64.toNat_zero]
    have order := advances.1
    omega
  constructor
  all_goals
    rw [received_append, AgentMain.collect_elapsed_seconds, AgentMain.collect_rates, AgentMain.collect_previous_net]
  case complete =>
    intro firstSet
    obtain ⟨set, rx, tx⟩ := ledger.complete firstSet
    obtain ⟨moreRx, moreTx⟩ := bytesOf_set set positive advances
    rw [transmitted_append, AgentMain.collect_elapsed_seconds, AgentMain.collect_rates, moreRx, moreTx, rx, tx]
    exact ⟨grown set, by ring, by ring⟩
  case silent =>
    intro stillUnset
    have unset : agent.previous_net.rx_bytes = 0 := not_not.mp fun set => grown set stillUnset
    obtain ⟨noRx, noTx⟩ := ledger.silent unset
    obtain ⟨rx, tx⟩ := @bytesOf_unset _ net (current_tick - agent.previous_tick) unset
    rw [transmitted_append, AgentMain.collect_elapsed_seconds, AgentMain.collect_rates, rx, tx, noRx, noTx]
    exact ⟨add_zero 0, add_zero 0⟩
  case short =>
    intro firstUnset nowSet
    by_cases unset : agent.previous_net.rx_bytes = 0
    · rw [(bytesOf_unset unset).1, (ledger.silent unset).1, add_zero, Nat.cast_pos]
      exact Nat.pos_of_ne_zero fun zero => nowSet (UInt64.toNat_inj.mp zero)
    · have less := ledger.short firstUnset unset
      rw [(bytesOf_set unset positive advances).1]
      linarith

/-- The ledger is kept along a run, as long as the samples are in order. -/
theorem AgentRun.ledger (run : AgentRun firstCpu firstNet firstTick agent log)
    (orderly : Orderly (read_net_sample firstNet) log) : Ledger (read_net_sample firstNet) agent log := by
  induction run with
  | start => exact Ledger.enter firstCpu firstNet firstTick
  | @next before after log entries previous one ih =>
    rcases one.cases with ⟨rfl, same⟩ | ⟨current_tick, cpu, net, sent, rfl, rfl⟩
    · rw [List.append_nil] at orderly ⊢
      obtain ⟨complete, silent, short⟩ := ih orderly
      exact ⟨by rwa [same], by rwa [same], by rwa [same]⟩
    · obtain ⟨earlier, positive, advances⟩ := orderly.of_append
      rw [← AgentRun.previous_net_eq previous] at advances
      exact (ih earlier).collect current_tick cpu net sent positive advances

end Run

/-- In every run with time passing and counters that do not decrease, the traffic
is accounted for exactly when the first count of received bytes was not zero or
no counter changed. -/
theorem traffic_accounted_iff {cpu : CpuReport} {net : NetReport} {tick : ℚ} {agent : AgentMain} {log : List Collected}
    (run : AgentRun cpu net tick agent log) (orderly : Orderly (read_net_sample net) log) :
    TrafficAccounted (read_net_sample net) log ↔
      (read_net_sample net).rx_bytes ≠ 0 ∨ lastSample (read_net_sample net) log = read_net_sample net := by
  have ledger := AgentRun.ledger run orderly
  unfold TrafficAccounted
  rw [← AgentRun.previous_net_eq run]
  generalize read_net_sample net = first at ledger
  by_cases firstUnset : first.rx_bytes = 0
  · rw [or_iff_right (not_not.mpr firstUnset), firstUnset, UInt64.toNat_zero, Nat.cast_zero, sub_zero]
    constructor
    · rintro ⟨rx, tx⟩
      have unset : agent.previous_net.rx_bytes = 0 := by
        by_contra set
        exact (ledger.short firstUnset set).ne rx
      rw [(ledger.silent unset).2, eq_comm, sub_eq_zero, Nat.cast_inj, UInt64.toNat_inj] at tx
      exact NetSample.ext (unset.trans firstUnset.symm) tx
    · intro same
      have unset : agent.previous_net.rx_bytes = 0 := by rw [same, firstUnset]
      rw [unset, same, sub_self, UInt64.toNat_zero, Nat.cast_zero]
      exact ledger.silent unset
  · exact iff_of_true (ledger.complete firstUnset).2 (Or.inl firstUnset)

/-- A connection that is lost at the first metrics it is given. -/
theorem AgentRun.reconnect {cpu : CpuReport} {net : NetReport} {tick : ℚ} {agent : AgentMain} {log : List Collected}
    (run : AgentRun cpu net tick agent log) (outer : agent.point = .outer) (running : agent.g_running = true)
    (current_tick : ℚ) (cpu' : CpuReport) (net' : NetReport) :
    AgentRun cpu net tick (agent.collect current_tick cpu' net' false).2
      (log ++ [(agent.collect current_tick cpu' net' false).1]) := by
  obtain ⟨previous_cpu, previous_net, previous_tick, g_running, point⟩ := agent
  obtain rfl : point = .outer := outer
  obtain rfl : g_running = true := running
  have connecting := run.next (.outer rfl)
  have inner := connecting.next (.connect true rfl)
  have collecting := inner.next (.inner rfl)
  rw [List.append_nil, List.append_nil, List.append_nil] at collecting
  exact collecting.next (.collect current_tick cpu' net' false rfl)

theorem traffic_accounted_iff_reconnect : ∃ agent log, AgentRun .failed (.GetIfTable [⟨6, 1024, 512⟩]) 0 agent log ∧
    log.length = 2 ∧ TrafficAccounted (read_net_sample (.GetIfTable [⟨6, 1024, 512⟩])) log := by
  have first : AgentRun .failed (.GetIfTable [⟨6, 1024, 512⟩]) 0 _ _ := .start
  have second := AgentRun.reconnect first rfl rfl 2 .failed (.GetIfTable [⟨6, 4096, 512⟩])
  have third := AgentRun.reconnect second rfl rfl 9 .failed (.GetIfTable [⟨6, 4096, 1024⟩])
  exact ⟨_, _, third, rfl,
    (traffic_accounted_iff third ⟨by decide +kernel, by decide +kernel⟩).mpr (Or.inl (by decide))⟩

/-- A machine that has sent but not yet received: what it sends until it first
receives, and the first that it receives, are in no metrics. -/
theorem traffic_before_first_reception_lost :
    ¬ ∀ cpu net tick agent log, AgentRun cpu net tick agent log → Orderly (read_net_sample net) log →
      TrafficAccounted (read_net_sample net) log := by
  intro accounted
  have first : AgentRun .failed (.GetIfTable [⟨6, 0, 342⟩]) 0 _ _ := .start
  have second := AgentRun.reconnect first rfl rfl 5 .failed (.GetIfTable [⟨6, 342, 684⟩])
  have lost := accounted _ _ _ _ _ second ⟨by decide +kernel, by decide +kernel⟩
  exact absurd lost.1 (by decide +kernel)

end SysNetMon
