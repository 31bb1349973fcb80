import Disping.Arithmetic.DecayingAverage
import Disping.Telemetry.ScalarPass

/-! # The continuous monitor

One loop updates counters, history, jitter and the window statistics through the
two assembly routines, here in exact arithmetic. The state after any number of
iterations is determined by the outcomes of the probes made so far.
-/
namespace Disping.Telemetry
open Arithmetic

/-- A round-trip time, or the marker -1 of a loss. -/
structure Probe where
  rtt : ℚ
  outcome : 0 ≤ rtt ∨ rtt = -1

structure PingStats where
  sent : BitVec 32
  received : BitVec 32
  lost : BitVec 32
  lossRate : ℚ
  minRttMs : ℚ
  maxRttMs : ℚ
  avgRttMs : ℚ
  jitterMs : ℚ
  stdDevMs : ℚ
  rttHistory : List ℚ

/-- The locals of the loop. -/
structure MonitorState where
  stats : PingStats
  previousRtt : ℚ
  validRtts : List ℚ

def MonitorState.initial : MonitorState where
  stats := {
    sent := 0, received := 0, lost := 0, lossRate := 0
    minRttMs := 99999, maxRttMs := 0, avgRttMs := 0, jitterMs := 0, stdDevMs := 0
    rttHistory := [] }
  previousRtt := -1
  validRtts := []

section Loop
variable (sqrt : ℚ → ℚ)

/-- The statistics written through the output pointers. -/
def PingStats.withPass (stats : PingStats) : Option (PassResult ℚ) → PingStats
  | none => stats
  | some out => { stats with
      minRttMs := out.outMin, maxRttMs := out.outMax, avgRttMs := out.outAvg, stdDevMs := out.outStdDev }

/-- The branch of a received reply. -/
def monitorReceived (st : MonitorState) (rtt : ℚ) : MonitorState :=
  let validRtts := st.validRtts ++ [rtt]
  let jitterMs :=
    if 0 ≤ st.previousRtt then calcJitter (exactOps sqrt) st.stats.jitterMs (rtt - st.previousRtt)
    else st.stats.jitterMs
  let stats := { st.stats with
    received := st.stats.received + 1
    rttHistory := st.stats.rttHistory ++ [rtt]
    jitterMs := jitterMs }
  { stats := stats.withPass (calcPingStats (exactOps sqrt) validRtts)
    previousRtt := rtt
    validRtts := validRtts }

def monitorLost (st : MonitorState) : MonitorState :=
  { st with stats := { st.stats with
      lost := st.stats.lost + 1
      rttHistory := st.stats.rttHistory ++ [-1] } }

/-- One iteration, up to the callback. -/
def monitorStep (st : MonitorState) (probe : Probe) : MonitorState :=
  let st := { st with stats := { st.stats with sent := st.stats.sent + 1 } }
  let st := if 0 ≤ probe.rtt then monitorReceived sqrt st probe.rtt else monitorLost st
  { st with stats := { st.stats with
      lossRate := if 0 < st.stats.sent then (st.stats.lost.toNat : ℚ) / st.stats.sent.toNat * 100 else 0 } }

/-- The iterations from `i` on while `left` remain, and what the callback is given after each. -/
def monitorLoop (probe : ℕ → Probe) (stopRequested : ℕ → Bool) : ℕ → ℕ → MonitorState → List PingStats × MonitorState
  | 0, _, st => ([], st)
  | left + 1, i, st =>
    if stopRequested i then ([], st)
    else
      let st := monitorStep sqrt st (probe i)
      let rest := monitorLoop probe stopRequested left (i + 1) st
      (st.stats :: rest.1, rest.2)

/-- RunContinuousMonitor: the calls of the callback and the result. -/
def runContinuousMonitor (count : BitVec 32) (probe : ℕ → Probe) (stopRequested : ℕ → Bool) :
    List PingStats × PingStats :=
  let run := monitorLoop sqrt probe stopRequested count.toInt.toNat 0 .initial
  let stats := run.2.stats
  (run.1, if stats.received = 0 then { stats with minRttMs := 0 } else stats)

end Loop

/-- The round-trip times among the outcomes. -/
def receivedRtts (outcomes : List Probe) : List ℚ := (outcomes.map Probe.rtt).filter (0 ≤ ·)

/-- What the statistics of the outcomes so far have to be. -/
structure Faithful (outcomes : List Probe) (stats : PingStats) : Prop where
  sent_eq : stats.sent.toNat = stats.received.toNat + stats.lost.toNat
  sent_length : stats.sent.toNat = outcomes.length
  history : stats.rttHistory = outcomes.map Probe.rtt
  received_eq : stats.received.toNat = (receivedRtts outcomes).length
  loss_eq : stats.lossRate = 100 * stats.lost.toNat / stats.sent.toNat
  loss_range : 0 ≤ stats.lossRate ∧ stats.lossRate ≤ 100
  jitter_eq : stats.jitterMs = decayFold (1 / 16) (receivedRtts outcomes)
  window : 1 ≤ stats.received.toNat →
    IsLeast {x | x ∈ receivedRtts outcomes} stats.minRttMs ∧
    IsGreatest {x | x ∈ receivedRtts outcomes} stats.maxRttMs ∧
    stats.avgRttMs = (receivedRtts outcomes).sum / (receivedRtts outcomes).length ∧
    0 ≤ stats.jitterMs ∧ stats.jitterMs ≤ stats.maxRttMs - stats.minRttMs

/-- What the loop keeps between iterations. -/
structure Tracks (outcomes : List Probe) (st : MonitorState) : Prop where
  valid : st.validRtts = receivedRtts outcomes
  previous : st.previousRtt = (receivedRtts outcomes).getLast?.getD (-1)
  sent : st.stats.sent.toNat = outcomes.length
  received : st.stats.received.toNat = (receivedRtts outcomes).length
  lost : st.stats.lost.toNat + (receivedRtts outcomes).length = outcomes.length
  loss : st.stats.lossRate = 100 * st.stats.lost.toNat / st.stats.sent.toNat
  history : st.stats.rttHistory = outcomes.map Probe.rtt
  jitter : st.stats.jitterMs = decayFold (1 / 16) (receivedRtts outcomes)
  window : receivedRtts outcomes ≠ [] →
    IsLeast {x | x ∈ receivedRtts outcomes} st.stats.minRttMs ∧
    IsGreatest {x | x ∈ receivedRtts outcomes} st.stats.maxRttMs ∧
    st.stats.avgRttMs = (receivedRtts outcomes).sum / (receivedRtts outcomes).length

theorem tracks_initial : Tracks [] .initial := by
  constructor <;> simp [MonitorState.initial, receivedRtts, decayFold, differences]

section Steps
variable (sqrt : ℚ → ℚ) {outcomes : List Probe} {st : MonitorState}

theorem receivedRtts_concat (outcomes : List Probe) (probe : Probe) : receivedRtts (outcomes ++ [probe]) =
    receivedRtts outcomes ++ if 0 ≤ probe.rtt then [probe.rtt] else [] := by
  simp only [receivedRtts, List.map_append, List.filter_append, List.map_cons, List.map_nil]
  split <;> simp_all

theorem length_receivedRtts_le (outcomes : List Probe) :
    (receivedRtts outcomes).length ≤ outcomes.length := by
  simpa [receivedRtts] using List.length_filter_le (fun q : ℚ => decide (0 ≤ q)) (outcomes.map Probe.rtt)

theorem receivedRtts_nonneg {x : ℚ} (h : x ∈ receivedRtts outcomes) : 0 ≤ x := by
  simpa using (List.mem_filter.mp h).2

theorem toNat_succ {x : BitVec 32} {n : ℕ} (h : x.toNat = n) (hn : n + 1 < 2 ^ 32) :
    (x + 1).toNat = n + 1 := by
  rw [BitVec.toNat_add, h]
  exact Nat.mod_eq_of_lt hn

theorem calcJitter_exact (x d : ℚ) : calcJitter (exactOps sqrt) x d = decay (1 / 16) x d := rfl

/-- The jitter of one more round-trip time. -/
theorem jitter_concat (h : Tracks outcomes st) (rtt : ℚ) :
    (if 0 ≤ st.previousRtt then calcJitter (exactOps sqrt) st.stats.jitterMs (rtt - st.previousRtt)
      else st.stats.jitterMs) = decayFold (1 / 16) (receivedRtts outcomes ++ [rtt]) := by
  rw [h.previous, h.jitter, calcJitter_exact]
  rcases List.eq_nil_or_concat (receivedRtts outcomes) with hnil | ⟨l, a, hl⟩
  · rw [hnil]
    norm_num [decayFold, differences]
  · have hmem : a ∈ receivedRtts outcomes := by simp [hl]
    have ha : 0 ≤ a := receivedRtts_nonneg hmem
    have hconcat : l.concat a ++ [rtt] = l ++ [a, rtt] := by simp
    rw [hl, hconcat, decayFold_concat]
    simp [ha]

/-- The pass over one more round-trip time writes its window. -/
theorem window_concat (h : Tracks outcomes st) (hlen : outcomes.length + 1 < 2 ^ 31) (rtt : ℚ) :
    ∃ out, calcPingStats (exactOps sqrt) (st.validRtts ++ [rtt]) = some out ∧
      IsLeast {x | x ∈ receivedRtts outcomes ++ [rtt]} out.outMin ∧
      IsGreatest {x | x ∈ receivedRtts outcomes ++ [rtt]} out.outMax ∧
      out.outAvg = (receivedRtts outcomes ++ [rtt]).sum / (receivedRtts outcomes ++ [rtt]).length := by
  have hle := length_receivedRtts_le outcomes
  rw [h.valid]
  exact calcPingStats_exact sqrt (by simp) (by simp; omega)

theorem lossRate_eq (sent lost : BitVec 32) :
    (if 0 < sent then (lost.toNat : ℚ) / sent.toNat * 100 else 0) = 100 * lost.toNat / sent.toNat := by
  by_cases h : 0 < sent
  · rw [if_pos h]
    ring
  · have hzero : sent.toNat = 0 := by
      rw [BitVec.lt_def] at h
      simpa using h
    rw [if_neg h, hzero]
    simp

/-- One iteration keeps track of one more outcome. -/
theorem tracks_monitorStep (h : Tracks outcomes st) (hlen : outcomes.length + 1 < 2 ^ 31) (probe : Probe) :
    Tracks (outcomes ++ [probe]) (monitorStep sqrt st probe) := by
  have hsent := toNat_succ h.sent (by omega)
  have hle := length_receivedRtts_le outcomes
  by_cases hrtt : 0 ≤ probe.rtt
  · have hrtts : receivedRtts (outcomes ++ [probe]) = receivedRtts outcomes ++ [probe.rtt] := by
      rw [receivedRtts_concat, if_pos hrtt]
    obtain ⟨out, hout, hmin, hmax, havg⟩ := window_concat sqrt h hlen probe.rtt
    have hreceived := toNat_succ h.received (by omega)
    have hjitter := jitter_concat sqrt h probe.rtt
    simp only [monitorStep, if_pos hrtt, monitorReceived, hout, hjitter, PingStats.withPass, lossRate_eq]
    refine ⟨?_, ?_, ?_, ?_, ?_, rfl, ?_, ?_, fun _ => ?_⟩
    · rw [hrtts, h.valid]
    · rw [hrtts, List.getLast?_append]
      simp
    · rw [hsent, List.length_append, List.length_singleton]
    · rw [hreceived, hrtts, List.length_append, List.length_singleton]
    · have hlost := h.lost
      simp only [hrtts, List.length_append, List.length_cons, List.length_nil]
      omega
    · rw [h.history, List.map_append, List.map_singleton]
    · rw [hrtts]
    · rw [hrtts]
      exact ⟨hmin, hmax, havg⟩
  · have hrtts : receivedRtts (outcomes ++ [probe]) = receivedRtts outcomes := by
      rw [receivedRtts_concat, if_neg hrtt, List.append_nil]
    have hmarker : probe.rtt = -1 := probe.outcome.resolve_left hrtt
    have hold := h.lost
    have hlost := toNat_succ (x := st.stats.lost) rfl (by omega)
    simp only [monitorStep, if_neg hrtt, monitorLost, lossRate_eq]
    refine ⟨?_, ?_, ?_, ?_, ?_, rfl, ?_, ?_, ?_⟩
    · rw [hrtts, h.valid]
    · rw [hrtts, h.previous]
    · rw [hsent, List.length_append, List.length_singleton]
    · rw [hrtts, h.received]
    · rw [hlost, hrtts, List.length_append, List.length_singleton]
      omega
    · rw [h.history, List.map_append, List.map_singleton, hmarker]
    · rw [hrtts, h.jitter]
    · rw [hrtts]
      exact h.window

/-- A tracked state, given to the callback, says what it has to say. -/
theorem Tracks.faithful (h : Tracks outcomes st) : Faithful outcomes st.stats := by
  have hlost := h.lost
  have hreceived := h.received
  have hsent := h.sent
  refine ⟨by omega, hsent, h.history, hreceived, h.loss, ?_, h.jitter, fun hone => ?_⟩
  · have hle : (st.stats.lost.toNat : ℚ) ≤ st.stats.sent.toNat := by exact_mod_cast (by omega)
    have hnonneg : (0 : ℚ) ≤ st.stats.lost.toNat := by positivity
    rw [h.loss]
    refine ⟨by positivity, div_le_of_le_mul₀ (by positivity) (by norm_num) ?_⟩
    linarith
  · have hrtts : receivedRtts outcomes ≠ [] := by
      intro hnil
      rw [hreceived, hnil] at hone
      simp at hone
    obtain ⟨hmin, hmax, havg⟩ := h.window hrtts
    have hmem : ∀ x ∈ receivedRtts outcomes, st.stats.minRttMs ≤ x ∧ x ≤ st.stats.maxRttMs :=
      fun x hx => ⟨hmin.2 hx, hmax.2 hx⟩
    have hbound := decayFold_mem (g := (1 / 16 : ℚ)) (by norm_num) (by norm_num)
      (hmin.2 hmax.1) hmem
    rw [← h.jitter] at hbound
    exact ⟨hmin, hmax, havg, hbound.1, hbound.2⟩

/-- Every call of the callback, after the first `i` outcomes. -/
theorem monitorLoop_faithful {probe : ℕ → Probe} {stopRequested : ℕ → Bool} (left i : ℕ)
    (h : Tracks ((List.range i).map probe) st) (hlen : i + left < 2 ^ 31) (k : ℕ) (stats : PingStats)
    (hk : (monitorLoop sqrt probe stopRequested left i st).1[k]? = some stats) :
    Faithful ((List.range (i + k + 1)).map probe) stats := by
  induction left generalizing i st k with
  | zero => simp [monitorLoop] at hk
  | succ left ih =>
    have hstep := tracks_monitorStep sqrt h (by simpa using by omega) (probe i)
    have hrange : (List.range i).map probe ++ [probe i] = (List.range (i + 1)).map probe := by
      rw [List.range_succ, List.map_append, List.map_singleton]
    rw [hrange] at hstep
    simp only [monitorLoop] at hk
    split at hk
    next => simp at hk
    next =>
      cases k with
      | zero =>
        simp only [List.getElem?_cons_zero, Option.some.injEq] at hk
        subst hk
        exact hstep.faithful
      | succ k =>
        rw [List.getElem?_cons_succ] at hk
        have hrest := ih (i + 1) hstep (by omega) k hk
        rwa [show i + 1 + k + 1 = i + (k + 1) + 1 by omega] at hrest

/-- The locals after the loop. -/
theorem monitorLoop_tracks {probe : ℕ → Probe} {stopRequested : ℕ → Bool} (left i : ℕ)
    (h : Tracks ((List.range i).map probe) st) (hlen : i + left < 2 ^ 31) :
    Tracks ((List.range (i + (monitorLoop sqrt probe stopRequested left i st).1.length)).map probe)
      (monitorLoop sqrt probe stopRequested left i st).2 := by
  induction left generalizing i st with
  | zero => exact h
  | succ left ih =>
    have hstep := tracks_monitorStep sqrt h (by simpa using by omega) (probe i)
    rw [← List.map_singleton, ← List.map_append, ← List.range_succ] at hstep
    simp only [monitorLoop]
    split
    next => exact h
    next =>
      have hrest := ih (i + 1) hstep (by omega)
      rwa [Nat.add_assoc, Nat.add_comm 1] at hrest

/-- The smallest time is reported as 0 when no reply was received. -/
theorem Faithful.reported {stats : PingStats} (h : Faithful outcomes stats) :
    Faithful outcomes (if stats.received = 0 then { stats with minRttMs := 0 } else stats) := by
  split
  · rename_i hnone
    refine ⟨h.sent_eq, h.sent_length, h.history, h.received_eq, h.loss_eq, h.loss_range, h.jitter_eq, ?_⟩
    intro hone
    rw [show ({ stats with minRttMs := 0 } : PingStats).received = 0 from hnone] at hone
    exact absurd hone (by decide)
  · exact h

/-- The loop runs until its count or the first stop request. -/
theorem length_monitorLoop (probe : ℕ → Probe) (stopRequested : ℕ → Bool) (left i : ℕ) (st : MonitorState) :
    (monitorLoop sqrt probe stopRequested left i st).1.length =
      ((List.range' i left).takeWhile fun j => !stopRequested j).length := by
  induction left generalizing i st with
  | zero => rfl
  | succ left ih =>
    simp only [monitorLoop, List.range'_succ, List.takeWhile_cons]
    cases stopRequested i with
    | true => rfl
    | false => simp [ih]

end Steps

/-- After every iteration of every run, and at its end, the statistics are those of the outcomes so far. -/
theorem runContinuousMonitor_faithful (sqrt : ℚ → ℚ) (count : BitVec 32) (probe : ℕ → Probe)
    (stopRequested : ℕ → Bool) :
    (runContinuousMonitor sqrt count probe stopRequested).1.length =
        ((List.range count.toInt.toNat).takeWhile fun j => !stopRequested j).length ∧
      (∀ (k : ℕ) (stats : PingStats),
        (runContinuousMonitor sqrt count probe stopRequested).1[k]? = some stats →
          Faithful ((List.range (k + 1)).map probe) stats) ∧
      Faithful ((List.range (runContinuousMonitor sqrt count probe stopRequested).1.length).map probe)
        (runContinuousMonitor sqrt count probe stopRequested).2 := by
  have hcount : 0 + count.toInt.toNat < 2 ^ 31 := by
    have := BitVec.toInt_lt (x := count)
    omega
  refine ⟨?_, ?_, ?_⟩
  · rw [List.range_eq_range']
    exact length_monitorLoop sqrt probe stopRequested _ 0 .initial
  · intro k stats hk
    have hfaithful := monitorLoop_faithful sqrt _ 0 tracks_initial hcount k stats hk
    rwa [Nat.zero_add] at hfaithful
  · have htracks := @monitorLoop_tracks sqrt _ probe stopRequested _ 0 tracks_initial hcount
    rw [Nat.zero_add] at htracks
    exact htracks.faithful.reported

/-- Replies of five milliseconds to four probes, the third one lost. -/
def thirdLost (i : ℕ) : Probe := if i = 2 then ⟨-1, .inr rfl⟩ else ⟨5, .inl (by norm_num)⟩

theorem runContinuousMonitor_faithful_thirdLost : ∃ stats,
    (runContinuousMonitor id 4 thirdLost fun _ => false).1[3]? = some stats ∧
      Faithful ((List.range 4).map thirdLost) stats := by
  have hlen : 3 < (runContinuousMonitor id 4 thirdLost fun _ => false).1.length := by
    rw [(runContinuousMonitor_faithful id 4 thirdLost fun _ => false).1]
    decide
  exact ⟨_, List.getElem?_eq_getElem hlen,
    (runContinuousMonitor_faithful id 4 thirdLost fun _ => false).2.1 3 _ (List.getElem?_eq_getElem hlen)⟩

end Disping.Telemetry
