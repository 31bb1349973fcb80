import Disping.Arithmetic.PopulationVariance
import Disping.Assembly.CalleeSaved
import Disping.Telemetry.ScalarPass

/-! # The statistics routine and its single pass

The routine on the machine is the pass of the telemetry in the arithmetic of
the processor: what it stores are the pass's results, at the pointers that are
not null. In exact arithmetic the pass is the reference that needs the mean
first.
-/
namespace Disping.Assembly
open Machine Telemetry Arithmetic

/-- Scalar instructions as the arithmetic of the pass. -/
def fpScalarOps (fp : FpOps) : ScalarOps Word where
  zero := 0
  gain := jitterGainVal
  add := fp.add
  sub := fp.sub
  mul := fp.mul
  div := fp.div
  sqrt := fp.sqrt
  abs x := x &&& absMaskPd.setWidth 64
  lt := fp.lt
  ofCount := fp.ofInt

section Machine
variable (cpu : Cpu) (s : State)

/-- The jitter routine is the filter of the telemetry in the arithmetic of the processor. -/
theorem asmCalcJitterRfc3550_returns : ∃ t, asmCalcJitterRfc3550.Returns cpu s t ∧
    t.lane 0 = calcJitter (fpScalarOps cpu.fp) (s.lane 0) (s.lane 1) := by
  have hmask : (s.xmm 1 &&& absMaskPd).setWidth 64 = s.lane 1 &&& absMaskPd.setWidth 64 := by
    rw [BitVec.setWidth_and, ← State.lane_eq_xmm]
  refine ⟨_, ⟨1, rfl⟩, ?_⟩
  simp [scalar, calcJitter, fpScalarOps, hmask]

/-- Memory under the three pushes. -/
def statsFrame : Memory :=
  store (store (store s.mem (s.gpr .rsp - 24 + 16) (s.gpr .rbp)) (s.gpr .rsp - 24 + 8) (s.gpr .rbx))
    (s.gpr .rsp - 24) (s.gpr .rdi)

/-- The first `n` samples. -/
def statsSamples (n : ℕ) : List Word :=
  (List.range n).map fun i => load 64 (statsFrame s) (s.gpr .rcx + BitVec.ofNat 64 i * 8)

/-- An output pointer may be null. -/
def storeUnlessNull (m : Memory) (p v : Word) : Memory := if p = 0 then m else store m p v

/-- The fifth and the sixth argument. -/
def statsOutAvg : Word := load 64 s.mem (s.gpr .rsp + 40)

def statsOutStdDev : Word := load 64 s.mem (s.gpr .rsp + 48)

/-- The four stores, in the routine's order. -/
def statsStores (out : PassResult Word) : Memory :=
  storeUnlessNull (storeUnlessNull (storeUnlessNull (storeUnlessNull (statsFrame s)
    (s.gpr .r8) out.outMin) (s.gpr .r9) out.outMax) (statsOutAvg s) out.outAvg)
    (statsOutStdDev s) out.outStdDev

/-- The accumulators after the first `n` samples. -/
def statsScan (n : ℕ) : ScanState Word :=
  (statsSamples s n).foldl (scanStep (fpScalarOps cpu.fp))
    (scanStart (fpScalarOps cpu.fp) (load 64 (statsFrame s) (s.gpr .rcx)))

def statsResult : PassResult Word :=
  passResult (fpScalarOps cpu.fp) (statsScan cpu s (s.gpr .rdx).toNat) (s.gpr .rdx)

theorem statsScan_zero : statsScan cpu s 0 =
    scanStart (fpScalarOps cpu.fp) (load 64 (statsFrame s) (s.gpr .rcx)) := rfl

theorem statsScan_succ (n : ℕ) : statsScan cpu s (n + 1) = scanStep (fpScalarOps cpu.fp)
    (statsScan cpu s n) (load 64 (statsFrame s) (s.gpr .rcx + BitVec.ofNat 64 n * 8)) := by
  rw [statsScan, statsSamples, List.range_succ, List.map_append, List.foldl_append]
  rfl

/-- With samples the pass runs over all of them. -/
theorem calcPingStats_statsSamples (hcount : s.gpr .rdx ≠ 0) :
    calcPingStats (fpScalarOps cpu.fp) (statsSamples s (s.gpr .rdx).toNat) =
      some (statsResult cpu s) := by
  obtain ⟨n, hn⟩ : ∃ n, (s.gpr .rdx).toNat = n + 1 := by
    apply Nat.exists_eq_add_one.mpr
    have hne : (s.gpr .rdx).toNat ≠ 0 := fun h => hcount (BitVec.eq_of_toNat_eq h)
    omega
  have hlist : statsSamples s (n + 1) = load 64 (statsFrame s) (s.gpr .rcx) ::
      (List.range n).map fun i => load 64 (statsFrame s) (s.gpr .rcx + BitVec.ofNat 64 (i + 1) * 8) := by
    rw [statsSamples, List.range_succ_eq_map, List.map_cons, List.map_map]
    simp [Function.comp_def]
  have hlength : BitVec.ofNat 64 (statsSamples s (n + 1)).length = s.gpr .rdx := by
    rw [statsSamples, List.length_map, List.length_range, ← hn, BitVec.ofNat_toNat, BitVec.setWidth_eq]
  rw [statsResult, statsScan, hn]
  rw [hlist] at hlength ⊢
  rw [calcPingStats, hlength]

/-- What no block after the entry changes. -/
structure StatsHeld (s u : State) : Prop where
  rcx : u.gpr .rcx = s.gpr .rcx
  rdx : u.gpr .rdx = s.gpr .rdx
  r8 : u.gpr .r8 = s.gpr .r8
  r9 : u.gpr .r9 = s.gpr .r9
  rax : u.gpr .rax = statsOutAvg s
  rbx : u.gpr .rbx = statsOutStdDev s

/-- The accumulators in their registers. -/
structure StatsLanes (acc : ScanState Word) (u : State) : Prop where
  min : u.lane 0 = acc.min
  max : u.lane 1 = acc.max
  sum : u.lane 2 = acc.sum
  sumSq : u.lane 3 = acc.sumSq

/-- A read above the frame sees through the pushes. -/
theorem load_statsFrame {j : ℕ} (hj : j + 8 ≤ 2 ^ 32) :
    load 64 (statsFrame s) (s.gpr .rsp + BitVec.ofNat 64 j) = load 64 s.mem (s.gpr .rsp + BitVec.ofNat 64 j) := by
  have h24 : s.gpr .rsp + BitVec.ofNat 64 j = s.gpr .rsp - 24#64 + BitVec.ofNat 64 (j + 24) := by
    rw [BitVec.ofNat_add]
    bv_omega
  have h16 : s.gpr .rsp + BitVec.ofNat 64 j = s.gpr .rsp - 24#64 + 8#64 + BitVec.ofNat 64 (j + 16) := by
    rw [BitVec.ofNat_add]
    bv_omega
  have h8 : s.gpr .rsp + BitVec.ofNat 64 j = s.gpr .rsp - 24#64 + 16#64 + BitVec.ofNat 64 (j + 8) := by
    rw [BitVec.ofNat_add]
    bv_omega
  calc load 64 (statsFrame s) (s.gpr .rsp + BitVec.ofNat 64 j)
    _ = load 64 (store (store s.mem (s.gpr .rsp - 24 + 16) (s.gpr .rbp)) (s.gpr .rsp - 24 + 8) (s.gpr .rbx))
        (s.gpr .rsp + BitVec.ofNat 64 j) := by
      rw [h24]
      exact load_store_above _ _ (n := 8) (k := 8) _ (by omega) (by omega)
    _ = load 64 (store s.mem (s.gpr .rsp - 24 + 16) (s.gpr .rbp)) (s.gpr .rsp + BitVec.ofNat 64 j) := by
      rw [h16]
      exact load_store_above _ _ (n := 8) (k := 8) _ (by omega) (by omega)
    _ = load 64 s.mem (s.gpr .rsp + BitVec.ofNat 64 j) := by
      rw [h8]
      exact load_store_above _ _ (n := 8) (k := 8) _ (by omega) (by omega)

theorem statsPrologue_held : ∃ u, runBlock cpu s statsPrologue = .next u ∧ StatsHeld s u ∧
    u.mem = statsFrame s := by
  have h8 : s.gpr .rsp - 8#64 = s.gpr .rsp - 24#64 + 16#64 := by bv_omega
  have h16 : s.gpr .rsp - 24#64 + 16#64 - 8#64 = s.gpr .rsp - 24#64 + 8#64 := by bv_omega
  have h24 : s.gpr .rsp - 24#64 + 8#64 - 8#64 = s.gpr .rsp - 24#64 := by bv_omega
  have h40 : s.gpr .rsp - 24#64 + 16#64 + 48#64 = s.gpr .rsp + BitVec.ofNat 64 40 := by bv_omega
  have h48 : s.gpr .rsp - 24#64 + 16#64 + 56#64 = s.gpr .rsp + BitVec.ofNat 64 48 := by bv_omega
  have havg := load_statsFrame s (j := 40) (by norm_num)
  have hdev := load_statsFrame s (j := 48) (by norm_num)
  simp only [statsPrologue, runBlock, exec, Outcome.next.injEq, exists_eq_left']
  refine ⟨⟨?_, ?_, ?_, ?_, ?_, ?_⟩, ?_⟩
  · simp
  · simp
  · simp
  · simp
  · simpa [State.src, h8, h16, h24, h40, statsOutAvg, statsFrame] using havg
  · simpa [State.src, h8, h16, h24, h48, statsOutStdDev, statsFrame] using hdev
  · simp [h8, h16, h24, statsFrame]

/-- Memory after the stores of the first outputs, by the label that comes next. -/
def statsPass (out : PassResult Word) (acc : ScanState Word) : StatsLabel → State → Prop
  | .entry, u => u = s
  | .statsLoop, u => StatsHeld s u ∧ u.mem = statsFrame s ∧
      (u.gpr .rdi).toNat ≤ (s.gpr .rdx).toNat ∧ StatsLanes (statsScan cpu s (u.gpr .rdi).toNat) u
  | .statsCompute, u => StatsHeld s u ∧ u.mem = statsFrame s ∧ StatsLanes acc u
  | .skipMin, u => StatsHeld s u ∧ u.mem = storeUnlessNull (statsFrame s) (s.gpr .r8) out.outMin ∧
      StatsLanes acc u
  | .skipMax, u => StatsHeld s u ∧ u.mem = storeUnlessNull (storeUnlessNull (statsFrame s)
      (s.gpr .r8) out.outMin) (s.gpr .r9) out.outMax ∧ StatsLanes acc u
  | .skipAvg, u => StatsHeld s u ∧ u.mem = storeUnlessNull (storeUnlessNull (storeUnlessNull
      (statsFrame s) (s.gpr .r8) out.outMin) (s.gpr .r9) out.outMax) (statsOutAvg s) out.outAvg ∧
      u.lane 2 = out.outAvg ∧ u.lane 3 = acc.sumSq ∧ u.lane 6 = cpu.fp.ofInt (s.gpr .rdx)
  | .statsDone, u => u.mem = statsStores s out

def statsMean : List (Instr StatsLabel) := [.cvtsi2sd 6 .rdx, .divsd 2 6]

theorem asmCalcPingStatsSimd_skipMax : asmCalcPingStatsSimd.code .skipMax = statsMean ++
    (.test .rax (.reg .rax) :: .jcc .jz .skipAvg :: [.movsdStore (.off .rax 0) 2]) := rfl

theorem statsMean_next : ∃ u, runBlock cpu s statsMean = .next u ∧ u.gpr = s.gpr ∧ u.mem = s.mem ∧
    u.lane 2 = cpu.fp.div (s.lane 2) (cpu.fp.ofInt (s.gpr .rdx)) ∧ u.lane 3 = s.lane 3 ∧
    u.lane 6 = cpu.fp.ofInt (s.gpr .rdx) := by
  simp [statsMean, runBlock, exec, scalar]

/-- What is left of the samples in xmm3 when the variance has been rooted. -/
theorem statsVariance_value : ∃ u, runBlock cpu s statsVariance = .next u ∧ u.gpr = s.gpr ∧
    u.mem = s.mem ∧ u.lane 3 =
      let variance := cpu.fp.sub (cpu.fp.div (s.lane 3) (s.lane 6)) (cpu.fp.mul (s.lane 2) (s.lane 2))
      cpu.fp.sqrt (if cpu.fp.lt 0 variance then variance else 0) := by
  simp [statsVariance, runBlock, exec, scalar]

variable {cpu s}

theorem StatsHeld.congr {u v : State} (h : StatsHeld s u) (hgpr : ∀ r, r ≠ .rdi → v.gpr r = u.gpr r) :
    StatsHeld s v where
  rcx := (hgpr _ (by decide)).trans h.rcx
  rdx := (hgpr _ (by decide)).trans h.rdx
  r8 := (hgpr _ (by decide)).trans h.r8
  r9 := (hgpr _ (by decide)).trans h.r9
  rax := (hgpr _ (by decide)).trans h.rax
  rbx := (hgpr _ (by decide)).trans h.rbx

theorem StatsLanes.congr {acc : ScanState Word} {u v : State} (h : StatsLanes acc u)
    (hymm : v.ymm = u.ymm) : StatsLanes acc v := by
  constructor
  · simpa [State.lane, hymm] using h.min
  · simpa [State.lane, hymm] using h.max
  · simpa [State.lane, hymm] using h.sum
  · simpa [State.lane, hymm] using h.sumSq

/-- A store behind a null check, which falls through to where the check jumps. -/
theorem lands_storeUnlessNull {L : Type} {T : L → State → Prop} {Q : State → Prop} {l : L} {u : State}
    {p : Reg} {i : Fin 16} (h : ∀ v : State, v.gpr = u.gpr → v.ymm = u.ymm →
      v.mem = storeUnlessNull u.mem (u.gpr p) (u.lane i) → T l v) :
    (runBlock cpu u [.test p (.reg p), .jcc .jz l, .movsdStore (.off p 0) i]).Lands T Q (some l) := by
  by_cases hnull : u.gpr p = 0#64
  · rw [runBlock_test_zero cpu u hnull]
    exact h _ rfl rfl (by simp [storeUnlessNull, hnull])
  · rw [runBlock_test_nonzero cpu u hnull]
    refine ⟨l, rfl, h _ rfl rfl ?_⟩
    simp [storeUnlessNull, hnull, State.lane]

theorem statsEntry_passes {out : PassResult Word} {acc : ScanState Word} (hrtts : s.gpr .rcx ≠ 0#64)
    (hcount : s.gpr .rdx ≠ 0#64) : (runBlock cpu s (asmCalcPingStatsSimd.code .entry)).Lands
      (fun l u => statsPass cpu s out acc l u ∧ statsMeasure l u < statsMeasure .entry s)
      (fun t => t.mem = statsStores s out) (some .statsLoop) := by
  obtain ⟨u, hu, hheld, hmem⟩ := statsPrologue_held cpu s
  rw [asmCalcPingStatsSimd_entry, runBlock_append cpu s hu,
    runBlock_test_nonzero cpu u (by rw [hheld.rcx]; exact hrtts),
    runBlock_test_nonzero cpu (u.setFlags false false) (by simpa [hheld.rdx] using hcount)]
  refine ⟨.statsLoop, rfl, ⟨hheld.congr ?_, ?_, ?_, ?_⟩, ?_⟩
  · intro r hr
    simp [logic, State.src, hr]
  · simpa [logic] using hmem
  · simp [logic, State.src]
  · constructor <;> simp [logic, State.src, statsScan_zero, scanStart, fpScalarOps, hheld.rcx, hmem]
  · simp [statsMeasure, logic, State.src, hheld.rdx]

theorem statsLoop_passes {out : PassResult Word} {u : State}
    (h : statsPass cpu s out (statsScan cpu s (s.gpr .rdx).toNat) .statsLoop u) :
    (runBlock cpu u (asmCalcPingStatsSimd.code .statsLoop)).Lands
      (fun l v => statsPass cpu s out (statsScan cpu s (s.gpr .rdx).toNat) l v ∧
        statsMeasure l v < statsMeasure .statsLoop u)
      (fun t => t.mem = statsStores s out) (some .statsCompute) := by
  obtain ⟨hheld, hmem, hle, hlanes⟩ := h
  by_cases hlt : u.gpr .rdi < u.gpr .rdx
  · have hlt' : (u.gpr .rdi).toNat < (u.gpr .rdx).toNat := hlt
    have hinc : (u.gpr .rdi + 1#64).toNat = (u.gpr .rdi).toNat + 1 := by
      have hrdx := (u.gpr .rdx).isLt
      rw [BitVec.toNat_add, BitVec.toNat_ofNat]
      omega
    have hcarry : decide (u.gpr .rdi < u.gpr .rdx) = true := decide_eq_true hlt
    simp only [asmCalcPingStatsSimd, runBlock, exec, State.src, State.condition, scalar, State.cf_setFlags,
      hcarry, BitVec.setWidth_eq]
    refine ⟨⟨hheld.congr ?_, ?_, ?_, ?_⟩, ?_⟩
    · intro r hr
      simp [hr]
    · simpa using hmem
    · simp [hinc]
      rw [← hheld.rdx]
      omega
    · have hnext : statsScan cpu s (u.gpr .rdi + 1#64).toNat = scanStep (fpScalarOps cpu.fp)
          (statsScan cpu s (u.gpr .rdi).toNat) (load 64 (statsFrame s) (s.gpr .rcx + u.gpr .rdi * 8#64)) := by
        rw [hinc, statsScan_succ, BitVec.ofNat_toNat, BitVec.setWidth_eq]
        rfl
      constructor
      · simp [-BitVec.toNat_add, hnext, scanStep, State.ea, hlanes.min, hmem, hheld.rcx]
        rfl
      · simp [-BitVec.toNat_add, hnext, scanStep, State.ea, hlanes.max, hmem, hheld.rcx]
        rfl
      · simp [-BitVec.toNat_add, hnext, scanStep, fpScalarOps, State.ea, hlanes.sum, hmem, hheld.rcx]
      · simp [-BitVec.toNat_add, hnext, scanStep, fpScalarOps, State.ea, hlanes.sumSq, hmem, hheld.rcx]
    · simp [statsMeasure, hinc]
      omega
  · have hend : (u.gpr .rdi).toNat = (s.gpr .rdx).toNat := by
      rw [BitVec.lt_def, hheld.rdx] at hlt
      omega
    have hcarry : decide (u.gpr .rdi < u.gpr .rdx) = false := decide_eq_false hlt
    simp only [asmCalcPingStatsSimd, runBlock, exec, State.src, State.condition, hcarry, BitVec.setWidth_eq]
    refine ⟨⟨hheld.congr fun _ _ => rfl, hmem, ?_⟩, ?_⟩
    · rw [← hend]
      exact hlanes.congr rfl
    · simp [statsMeasure]

/-- One block of the routine against the pass. -/
theorem statsBlock_passes (l : StatsLabel) (u : State) (hrtts : s.gpr .rcx ≠ 0#64)
    (hcount : s.gpr .rdx ≠ 0#64)
    (h : statsPass cpu s (statsResult cpu s) (statsScan cpu s (s.gpr .rdx).toNat) l u) :
    (runBlock cpu u (asmCalcPingStatsSimd.code l)).Lands
      (fun l' v => statsPass cpu s (statsResult cpu s) (statsScan cpu s (s.gpr .rdx).toNat) l' v ∧
        statsMeasure l' v < statsMeasure l u)
      (fun t => t.mem = statsStores s (statsResult cpu s)) (asmCalcPingStatsSimd.fall l) := by
  cases l with
  | entry =>
    subst h
    exact statsEntry_passes hrtts hcount
  | statsLoop => exact statsLoop_passes h
  | statsCompute =>
    obtain ⟨hheld, hmem, hlanes⟩ := h
    apply lands_storeUnlessNull
    intro v hgpr hymm hstore
    refine ⟨⟨hheld.congr fun r _ => congrFun hgpr r, ?_, hlanes.congr hymm⟩, by simp [statsMeasure]⟩
    rw [hstore, hmem, hheld.r8, hlanes.min]
    rfl
  | skipMin =>
    obtain ⟨hheld, hmem, hlanes⟩ := h
    apply lands_storeUnlessNull
    intro v hgpr hymm hstore
    refine ⟨⟨hheld.congr fun r _ => congrFun hgpr r, ?_, hlanes.congr hymm⟩, by simp [statsMeasure]⟩
    rw [hstore, hmem, hheld.r9, hlanes.max]
    rfl
  | skipMax =>
    obtain ⟨hheld, hmem, hlanes⟩ := h
    obtain ⟨w, hw, hgprw, hmemw, hmean, hsq, hcnt⟩ := statsMean_next cpu u
    rw [asmCalcPingStatsSimd_skipMax, runBlock_append cpu u hw]
    apply lands_storeUnlessNull
    intro v hgpr hymm hstore
    have havg : w.lane 2 = (statsResult cpu s).outAvg := by
      rw [hmean, hlanes.sum, hheld.rdx]
      rfl
    refine ⟨⟨hheld.congr fun r _ => congrFun (hgpr.trans hgprw) r, ?_, ?_, ?_, ?_⟩, by simp [statsMeasure]⟩
    · rw [hstore, hmemw, hmem, hgprw, hheld.rax, havg]
    · rw [State.lane, hymm, ← State.lane, havg]
    · rw [State.lane, hymm, ← State.lane, hsq, hlanes.sumSq]
    · rw [State.lane, hymm, ← State.lane, hcnt, hheld.rdx]
  | skipAvg =>
    obtain ⟨hheld, hmem, hmean, hsq, hcnt⟩ := h
    obtain ⟨w, hw, hgprw, hmemw, hdev⟩ := statsVariance_value cpu u
    rw [asmCalcPingStatsSimd_skipAvg, runBlock_append cpu u hw]
    apply lands_storeUnlessNull
    intro v hgpr hymm hstore
    refine ⟨?_, by simp [statsMeasure]⟩
    rw [statsPass, hstore, hmemw, hmem, hgprw, hheld.rbx, hdev, hmean, hsq, hcnt]
    rfl
  | statsDone => exact h

/-- With samples the routine returns, having stored the results of the pass. -/
theorem asmCalcPingStatsSimd_passes (cpu : Cpu) (s : State) (hrtts : s.gpr .rcx ≠ 0#64)
    (hcount : s.gpr .rdx ≠ 0#64) :
    ∃ t, asmCalcPingStatsSimd.Returns cpu s t ∧ t.mem = statsStores s (statsResult cpu s) := by
  obtain ⟨t, ht, hmem⟩ := asmCalcPingStatsSimd.run_of_table cpu
    (fun l u => statsBlock_passes l u hrtts hcount) ((s.gpr .rdx).toNat + 8) .entry s rfl
    (by simp [statsMeasure])
  exact ⟨t, ⟨_, ht⟩, hmem⟩

end Machine

section Exact
variable {K : Type*} (ops : ScalarOps K)

/-- The quantity under the square root, before the clamp. -/
def passVariance (acc : ScanState K) (count : BitVec 64) : K :=
  ops.sub (ops.div acc.sumSq (ops.ofCount count))
    (ops.mul (ops.div acc.sum (ops.ofCount count)) (ops.div acc.sum (ops.ofCount count)))

def calcVariance : List K → Option K
  | [] => none
  | first :: rest => some (passVariance ops ((first :: rest).foldl (scanStep ops) (scanStart ops first))
      (BitVec.ofNat 64 (first :: rest).length))

/-- The standard deviation is the root of the clamped variance. -/
theorem calcPingStats_outStdDev {l : List K} {out : PassResult K} {variance : K}
    (hout : calcPingStats ops l = some out) (hvar : calcVariance ops l = some variance) :
    out.outStdDev = ops.sqrt (if ops.lt ops.zero variance then variance else ops.zero) := by
  cases l with
  | nil => cases hout
  | cons first rest =>
    cases hout
    cases hvar
    rfl

theorem ofCount_exact (sqrt : ℚ → ℚ) {n : ℕ} (hn : 8 * n ≤ 2 ^ 64) :
    (exactOps sqrt).ofCount (BitVec.ofNat 64 n) = n := by
  have hnat : (BitVec.ofNat 64 n).toNat = n := by
    rw [BitVec.toNat_ofNat, Nat.mod_eq_of_lt (by omega)]
  have hint : (BitVec.ofNat 64 n).toInt = n := by
    rw [BitVec.toInt_eq_toNat_of_lt (by rw [hnat]; omega), hnat]
  simp [exactOps, hint]

theorem calcVariance_exact (sqrt : ℚ → ℚ) {l : List ℚ} (hne : l ≠ []) (hlen : 8 * l.length ≤ 2 ^ 64) :
    calcVariance (exactOps sqrt) l = some (populationVariance l) := by
  have hcount := ofCount_exact sqrt hlen
  rw [populationVariance_eq hne]
  cases l with
  | nil => exact absurd rfl hne
  | cons first rest =>
    rw [calcVariance, passVariance, hcount, scan_exact]
    simp [scanStart, exactOps, mean]

/-- The routine in one pass, and the exact pass against the reference in two. -/
theorem asmCalcPingStatsSimd_twoPass (cpu : Cpu) (s : State) (hrtts : s.gpr .rcx ≠ 0)
    (hcount : s.gpr .rdx ≠ 0) (sqrt : ℚ → ℚ) (l : List ℚ) (hne : l ≠ [])
    (hlen : 8 * l.length ≤ 2 ^ 64) :
    (∃ t out, asmCalcPingStatsSimd.Returns cpu s t ∧
      calcPingStats (fpScalarOps cpu.fp) (statsSamples s (s.gpr .rdx).toNat) = some out ∧
      t.mem = statsStores s out) ∧
    ∃ out variance, calcPingStats (exactOps sqrt) l = some out ∧
      calcVariance (exactOps sqrt) l = some variance ∧
      IsLeast {x | x ∈ l} out.outMin ∧ IsGreatest {x | x ∈ l} out.outMax ∧ out.outAvg = mean l ∧
      out.outMin ≤ out.outAvg ∧ out.outAvg ≤ out.outMax ∧
      variance = populationVariance l ∧ 0 ≤ variance ∧
      (variance = 0 ↔ ∀ x ∈ l, ∀ y ∈ l, x = y) ∧ out.outStdDev = sqrt variance := by
  obtain ⟨t, ht, hmem⟩ := asmCalcPingStatsSimd_passes cpu s hrtts hcount
  obtain ⟨out, hout, hleast, hgreatest, havg⟩ := calcPingStats_exact sqrt hne (by omega)
  have hvar := calcVariance_exact sqrt hne hlen
  have hnonneg := populationVariance_nonneg l
  constructor
  · exact ⟨t, statsResult cpu s, ht, calcPingStats_statsSamples cpu s hcount, hmem⟩
  · refine ⟨out, populationVariance l, hout, hvar, hleast, hgreatest, havg, ?_, ?_, rfl, hnonneg,
      populationVariance_eq_zero_iff hne, ?_⟩
    · rw [havg]
      exact le_mean hne hleast.2
    · rw [havg]
      exact mean_le hne hgreatest.2
    · -- the clamp is idle: it replaces a variance of zero by zero
      rw [calcPingStats_outStdDev _ hout hvar]
      rcases hnonneg.eq_or_lt with hzero | hpos
      · simp [exactOps, ← hzero]
      · simp [exactOps, hpos]

theorem asmCalcPingStatsSimd_twoPass_pair :
    (∃ t out, asmCalcPingStatsSimd.Returns default oneSample t ∧
      calcPingStats (fpScalarOps (default : Cpu).fp) (statsSamples oneSample 1) = some out ∧
      t.mem = statsStores oneSample out) ∧
    ∃ out variance, calcPingStats (exactOps id) [1, 3] = some out ∧
      calcVariance (exactOps id) [1, 3] = some variance ∧ out.outAvg = 2 ∧ variance = 1 := by
  obtain ⟨hrun, out, variance, hout, hvar, -, -, havg, -, -, hpop, -⟩ :=
    asmCalcPingStatsSimd_twoPass default oneSample (by decide) (by decide) id [1, 3] (by simp) (by norm_num)
  refine ⟨hrun, out, variance, hout, hvar, ?_, ?_⟩
  · rw [havg]
    norm_num [mean]
  · rw [hpop]
    norm_num [populationVariance, mean]

end Exact

end Disping.Assembly
