import Disping.Arithmetic.DiscountedSum
import Disping.Relay.ForwardLoop

/-! # The average forwarding time

The average starts at zero, which counts as a forwarding time before the first one. So after `n`
packets it is short of a weighted mean of their times by the share that zero still has.
-/
namespace Disping.Relay
open Machine Assembly Arithmetic

/-- The times of the datagrams that sendto accepted. -/
def forwardTimes (its : List Iteration) : List ℚ :=
  its.filterMap fun it => it.received.datagram?.bind fun _ =>
    if 0 < it.sent.toInt then some it.us else none

/-- No smaller than the smallest member and no larger than the largest. -/
structure Within (times : List ℚ) (x : ℚ) : Prop where
  low : ∃ lo ∈ times, lo ≤ x
  high : ∃ hi ∈ times, x ≤ hi

/-- The times spread so far that their weighted excess over the smallest makes up for the share of
the start, and over the largest it does not go below it. -/
structure OutweighsStart (times : List ℚ) : Prop where
  low : ∃ lo ∈ times, (95 / 100) ^ times.length * lo ≤
    discounted (95 / 100) (5 / 100) (times.map (· - lo))
  high : ∃ hi ∈ times, 0 ≤ (95 / 100) ^ times.length * hi +
    discounted (95 / 100) (5 / 100) (times.map (hi - ·))

theorem forward_average (stats : UdpProxyStats) {sent : BitVec 32} (hsent : 0 < sent.toInt) (us : ℚ) :
    (stats.forward sent us).avgForwardLatencyUs =
      mix (95 / 100) (5 / 100) stats.avgForwardLatencyUs us := by
  rw [UdpProxyStats.forward, if_pos hsent, mix]

section Loop
variable (cpu : Cpu) (b : Buffers)

theorem relayIteration_average (st : RelayState) (it : Iteration) :
    ∃ st', relayIteration cpu b st it = some st' ∧ st'.stats.avgForwardLatencyUs =
      (forwardTimes [it]).foldl (mix (95 / 100) (5 / 100)) st.stats.avgForwardLatencyUs := by
  cases hr : it.received with
  | failed => exact ⟨st, relayIteration_idle cpu b st (by rw [hr]; rfl), by simp [forwardTimes, hr, Received.datagram?]⟩
  | empty => exact ⟨st, relayIteration_idle cpu b st (by rw [hr]; rfl), by simp [forwardTimes, hr, Received.datagram?]⟩
  | datagram d =>
    obtain ⟨st', hrun, -, hstats, -⟩ := relayIteration_datagram cpu b st hr
    refine ⟨st', hrun, ?_⟩
    rw [hstats]
    by_cases hsent : 0 < it.sent.toInt
    · have htimes : forwardTimes [it] = [it.us] := by
        simp [forwardTimes, hr, Received.datagram?, hsent]
      rw [htimes, forward_average _ hsent, List.foldl_cons, List.foldl_nil]
    · have htimes : forwardTimes [it] = [] := by
        simp [forwardTimes, hr, Received.datagram?, hsent]
      rw [htimes, UdpProxyStats.forward, if_neg hsent, List.foldl_nil]

/-- A run mixes the times into the average one after the other. -/
theorem relayLoop_average (st : RelayState) (its : List Iteration) :
    ∃ st', relayLoop cpu b st its = some st' ∧ st'.stats.avgForwardLatencyUs =
      (forwardTimes its).foldl (mix (95 / 100) (5 / 100)) st.stats.avgForwardLatencyUs := by
  induction its generalizing st with
  | nil => exact ⟨st, rfl, rfl⟩
  | cons it its ih =>
    obtain ⟨st₁, hrun₁, hstep⟩ := relayIteration_average cpu b st it
    obtain ⟨st₂, hrun₂, hrest⟩ := ih st₁
    have htimes : forwardTimes (it :: its) = forwardTimes [it] ++ forwardTimes its := by
      rw [← List.singleton_append, forwardTimes, List.filterMap_append]
      rfl
    refine ⟨st₂, by simp only [relayLoop, hrun₁, Option.bind_eq_bind, Option.bind_some, hrun₂], ?_⟩
    rw [hrest, hstep, htimes, List.foldl_append]

/-- When the average of a run lies among the times it was taken from. -/
theorem relayLoop_within_iff (s : State) (its : List Iteration) :
    ∃ st, relayLoop cpu b (startState s) its = some st ∧
      (Within (forwardTimes its) st.stats.avgForwardLatencyUs ↔
        OutweighsStart (forwardTimes its)) := by
  obtain ⟨st, hrun, havg⟩ := relayLoop_average cpu b (startState s) its
  have hshares : (95 / 100 : ℚ) + 5 / 100 = 1 := by norm_num
  have hzero : (startState s).stats.avgForwardLatencyUs = 0 := rfl
  rw [hzero] at havg
  refine ⟨st, hrun, ?_⟩
  rw [havg]
  constructor
  · rintro ⟨⟨lo, hlo, hle⟩, ⟨hi, hhi, hle'⟩⟩
    exact ⟨⟨lo, hlo, (le_average_iff hshares lo _).mp hle⟩,
      ⟨hi, hhi, (average_le_iff hshares hi _).mp hle'⟩⟩
  · rintro ⟨⟨lo, hlo, hle⟩, ⟨hi, hhi, hle'⟩⟩
    exact ⟨⟨lo, hlo, (le_average_iff hshares lo _).mpr hle⟩,
      ⟨hi, hhi, (average_le_iff hshares hi _).mpr hle'⟩⟩

end Loop

/-- The first packet, with 100 microseconds, leaves an average of 5. -/
theorem not_relayLoop_within : ¬ ∀ (cpu : Cpu) (b : Buffers) (s : State) (its : List Iteration),
    forwardTimes its ≠ [] → ∃ st, relayLoop cpu b (startState s) its = some st ∧
      Within (forwardTimes its) st.stats.avgForwardLatencyUs := by
  intro hall
  let b : Buffers := ⟨0x10000, 0x20000, by decide, by decide, by decide, by decide, by decide,
    by decide, by decide⟩
  let d : Datagram := ⟨[1], by decide, by decide⟩
  let it : Iteration := ⟨.datagram d, 1, 100⟩
  have htimes : forwardTimes [it] = [100] := rfl
  obtain ⟨st, hrun, hwithin⟩ := hall default b default [it] (by rw [htimes]; simp)
  obtain ⟨st', hrun', havg⟩ := relayLoop_average default b (startState default) [it]
  rw [hrun] at hrun'
  obtain rfl := Option.some.inj hrun'
  rw [htimes] at hwithin havg
  obtain ⟨lo, hlo, hle⟩ := hwithin.low
  rw [List.mem_singleton.mp hlo, havg] at hle
  have hfive : [(100 : ℚ)].foldl (mix (95 / 100) (5 / 100)) 0 = 5 := by norm_num [mix]
  have hzero : (startState default).stats.avgForwardLatencyUs = 0 := rfl
  rw [hzero, hfive] at hle
  norm_num at hle

end Disping.Relay
