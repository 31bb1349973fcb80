import Disping.Assembly.MemcpyRuns
import Disping.Assembly.MemzeroEffect
import Mathlib.Data.Rat.Defs

/-! # The relay loop

A datagram lands in packetBuffer, is copied to relayBuffer, sent from there and
cleared from packetBuffer. Both assembly routines run on the memory that holds
the two buffers; nothing is assumed about what earlier datagrams left there.
-/
namespace Disping.Relay
open Machine Assembly

/-- The two aligned arrays of the worker's frame. -/
structure Buffers where
  packetBuffer : Word
  relayBuffer : Word
  packet_ne : packetBuffer ≠ 0
  relay_ne : relayBuffer ≠ 0
  packet_aligned : packetBuffer.toNat % 32 = 0
  relay_aligned : relayBuffer.toNat % 32 = 0
  packet_end : packetBuffer.toNat + 65536 ≤ 2 ^ 64
  relay_end : relayBuffer.toNat + 65536 ≤ 2 ^ 64
  disjoint : packetBuffer.toNat + 65536 ≤ relayBuffer.toNat ∨
    relayBuffer.toNat + 65536 ≤ packetBuffer.toNat

/-- What one call of recvfrom can deliver into a buffer of 65536 bytes. -/
structure Datagram where
  bytes : List (BitVec 8)
  nonempty : 0 < bytes.length
  fits : bytes.length ≤ 65536

inductive Received
  /-- An error or the timeout, both negative results. -/
  | failed
  /-- An empty datagram, the result zero. -/
  | empty
  | datagram (d : Datagram)

def Received.datagram? : Received → Option Datagram
  | .failed | .empty => none
  | .datagram d => some d

structure UdpProxyStats where
  packetsForwarded : Word
  bytesForwarded : Word
  avgForwardLatencyUs : ℚ

instance : Inhabited UdpProxyStats := ⟨⟨0, 0, 0⟩⟩

/-- The results that the socket and the clock give one iteration. -/
structure Iteration where
  received : Received
  /-- The int returned by sendto. -/
  sent : BitVec 32
  us : ℚ

structure RelayState where
  machine : State
  stats : UdpProxyStats
  /-- The payloads passed to sendto, the first one first. -/
  payloads : List (List (BitVec 8))

def UdpProxyStats.forward (stats : UdpProxyStats) (sent : BitVec 32) (us : ℚ) : UdpProxyStats :=
  if 0 < sent.toInt then {
    packetsForwarded := stats.packetsForwarded + 1
    bytesForwarded := stats.bytesForwarded + sent.signExtend 64
    avgForwardLatencyUs := stats.avgForwardLatencyUs * (95 / 100) + us * (5 / 100) }
  else stats

section Loop
variable (cpu : Cpu) (b : Buffers)

/-- One pass through the loop body, with the fuel that each routine needs. -/
def relayIteration (st : RelayState) (it : Iteration) : Option RelayState :=
  match it.received with
  | .failed | .empty => some st
  | .datagram d => do
    let received := d.bytes.length
    let size := BitVec.ofNat 64 received
    let filled := st.machine.setMem (writeBytes st.machine.mem b.packetBuffer d.bytes)
    let copied ← asmAvx2MemcpyNt.run cpu (8 * received + 8) .entry
      (filled.call3 b.relayBuffer b.packetBuffer size)
    let payload := readBytes copied.mem b.relayBuffer received
    let cleared ← asmAvx2MemzeroNt.run cpu (8 * received + 8) .entry (copied.call2 b.packetBuffer size)
    some {
      machine := cleared
      stats := st.stats.forward it.sent it.us
      payloads := st.payloads ++ [payload] }

def relayLoop : RelayState → List Iteration → Option RelayState
  | st, [] => some st
  | st, it :: rest => do
    let st' ← relayIteration cpu b st it
    relayLoop st' rest

/-- Start resets the statistics; nothing has been sent yet. -/
def startState (s : State) : RelayState := ⟨s, default, []⟩

section Windows
variable {n : ℕ}

theorem Buffers.apart_relay_packet (hn : n ≤ 65536) : Apart b.relayBuffer b.packetBuffer n := by
  intro i hi
  have h1 := b.packet_end
  have h2 := b.relay_end
  have h3 := b.disjoint
  simp only [offset, BitVec.toNat_sub, BitVec.toNat_add, BitVec.toNat_ofNat]
  omega

end Windows

/-- A datagram is passed on as it came, and cleared from the packet buffer. -/
theorem relayIteration_datagram (st : RelayState) {it : Iteration} {d : Datagram}
    (hd : it.received = .datagram d) :
    ∃ st', relayIteration cpu b st it = some st' ∧ st'.payloads = st.payloads ++ [d.bytes] ∧
      st'.stats = st.stats.forward it.sent it.us ∧
      readBytes st'.machine.mem b.packetBuffer d.bytes.length = List.replicate d.bytes.length 0 := by
  have hfits := d.fits
  let size := BitVec.ofNat 64 d.bytes.length
  have hsize : size.toNat = d.bytes.length := by
    simp only [size, BitVec.toNat_ofNat]
    exact Nat.mod_eq_of_lt (by omega)
  let filled := st.machine.setMem (writeBytes st.machine.mem b.packetBuffer d.bytes)
  obtain ⟨t, ht, hcopy⟩ := asmAvx2MemcpyNt_returns cpu b.relayBuffer b.packetBuffer size
    (s := filled.call3 b.relayBuffer b.packetBuffer size) (by simp [State.call3, State.call2])
    (by simp [State.call3, State.call2]) (by simp [State.call3])
    (b.apart_relay_packet (by omega)) (.inl b.relay_aligned)
  obtain ⟨u, hu, hzero⟩ := asmAvx2MemzeroNt_returns cpu b.packetBuffer size
    (s := t.call2 b.packetBuffer size) (by simp [State.call2]) rfl
  have hfilled : (filled.call3 b.relayBuffer b.packetBuffer size).mem =
      writeBytes st.machine.mem b.packetBuffer d.bytes := rfl
  have hpayload : readBytes t.mem b.relayBuffer d.bytes.length = d.bytes := by
    have hnull : ¬ (b.relayBuffer = 0 ∨ b.packetBuffer = 0) := not_or.mpr ⟨b.relay_ne, b.packet_ne⟩
    rw [hcopy.1, copied, if_neg hnull, hsize, readBytes_copy _ _ _ _ (by omega), hfilled]
    exact readBytes_writeBytes _ _ (by omega)
  have hclear : readBytes u.mem b.packetBuffer d.bytes.length = List.replicate d.bytes.length 0 := by
    rw [hzero.1, zeroed, if_neg b.packet_ne, hsize]
    exact readBytes_clear _ _ (by omega)
  rw [hsize] at ht hu
  refine ⟨⟨u, st.stats.forward it.sent it.us, st.payloads ++ [d.bytes]⟩, ?_, rfl, rfl, hclear⟩
  simp only [relayIteration, hd]
  change (do
    let copied ← asmAvx2MemcpyNt.run cpu (8 * d.bytes.length + 8) .entry
      (filled.call3 b.relayBuffer b.packetBuffer size)
    let cleared ← asmAvx2MemzeroNt.run cpu (8 * d.bytes.length + 8) .entry (copied.call2 b.packetBuffer size)
    some (⟨cleared, st.stats.forward it.sent it.us,
      st.payloads ++ [readBytes copied.mem b.relayBuffer d.bytes.length]⟩ : RelayState)) = _
  simp only [ht, hu, hpayload, Option.bind_eq_bind, Option.bind_some]

/-- The datagrams that a sequence of receive results delivers. -/
def delivered (its : List Iteration) : List (List (BitVec 8)) :=
  its.filterMap fun it => it.received.datagram?.map Datagram.bytes

/-- The positive results of the calls of sendto, one call for each datagram. -/
def positiveSends (its : List Iteration) : List ℤ :=
  (its.filterMap fun it => it.received.datagram?.map fun _ => it.sent.toInt).filter (0 < ·)

theorem relayIteration_idle (st : RelayState) {it : Iteration} (h : it.received.datagram? = none) :
    relayIteration cpu b st it = some st := by
  cases hr : it.received with
  | failed => simp only [relayIteration, hr]
  | empty => simp only [relayIteration, hr]
  | datagram d =>
    rw [hr] at h
    cases h

section Counters
variable (stats : UdpProxyStats)

/-- Adding up from given counters, modulo `2^64` like the members themselves. -/
def Counts (stats stats' : UdpProxyStats) (sends : List ℤ) : Prop :=
  stats'.packetsForwarded = stats.packetsForwarded + BitVec.ofNat 64 sends.length ∧
    stats'.bytesForwarded = stats.bytesForwarded + BitVec.ofInt 64 sends.sum

theorem Counts.nil : Counts stats stats [] := by simp [Counts]

variable {stats} {stats' stats'' : UdpProxyStats} {sends sends' : List ℤ}

theorem Counts.append (h : Counts stats stats' sends) (h' : Counts stats' stats'' sends') :
    Counts stats stats'' (sends ++ sends') := by
  obtain ⟨hp, hb⟩ := h
  obtain ⟨hp', hb'⟩ := h'
  refine ⟨?_, ?_⟩
  · rw [hp', hp, List.length_append, BitVec.ofNat_add, BitVec.add_assoc]
  · rw [hb', hb, List.sum_append, BitVec.ofInt_add, BitVec.add_assoc]

theorem counts_forward (sent : BitVec 32) (us : ℚ) :
    Counts stats (stats.forward sent us) ([sent.toInt].filter (0 < ·)) := by
  by_cases h : 0 < sent.toInt
  · simp [Counts, UdpProxyStats.forward, h, BitVec.signExtend]
  · simpa [UdpProxyStats.forward, h] using Counts.nil stats

end Counters

/-- One iteration, whatever it received. -/
theorem relayIteration_some (st : RelayState) (it : Iteration) :
    ∃ st', relayIteration cpu b st it = some st' ∧
      st'.payloads = st.payloads ++ delivered [it] ∧ Counts st.stats st'.stats (positiveSends [it]) := by
  cases hd : it.received.datagram? with
  | none =>
    refine ⟨st, relayIteration_idle cpu b st hd, ?_, ?_⟩
    · simp [delivered, hd]
    · simpa [positiveSends, hd] using Counts.nil st.stats
  | some d =>
    have hr : it.received = .datagram d := by
      cases hr : it.received with
      | failed => simp [hr, Received.datagram?] at hd
      | empty => simp [hr, Received.datagram?] at hd
      | datagram d' => simpa [hr, Received.datagram?] using hd
    obtain ⟨st', hrun, hpay, hstats, _⟩ := relayIteration_datagram cpu b st hr
    refine ⟨st', hrun, ?_, ?_⟩
    · simpa [delivered, hd] using hpay
    · rw [hstats]
      simpa [positiveSends, hd] using counts_forward it.sent it.us

theorem relayLoop_some (st : RelayState) (its : List Iteration) :
    ∃ st', relayLoop cpu b st its = some st' ∧ st'.payloads = st.payloads ++ delivered its ∧
      Counts st.stats st'.stats (positiveSends its) := by
  induction its generalizing st with
  | nil => exact ⟨st, rfl, by simp [delivered], Counts.nil st.stats⟩
  | cons it its ih =>
    obtain ⟨st1, h1, hpay1, hcount1⟩ := relayIteration_some cpu b st it
    obtain ⟨st2, h2, hpay2, hcount2⟩ := ih st1
    have hdel : delivered (it :: its) = delivered [it] ++ delivered its := by
      rw [← List.singleton_append, delivered, List.filterMap_append]
      rfl
    have hpos : positiveSends (it :: its) = positiveSends [it] ++ positiveSends its := by
      rw [← List.singleton_append, positiveSends, List.filterMap_append, List.filter_append]
      rfl
    refine ⟨st2, by simp only [relayLoop, h1, Option.bind_eq_bind, Option.bind_some, h2], ?_, ?_⟩
    · rw [hpay2, hpay1, hdel, List.append_assoc]
    · rw [hpos]
      exact hcount1.append hcount2

theorem relayLoop_append (st : RelayState) (its its' : List Iteration) :
    relayLoop cpu b st (its ++ its') = (relayLoop cpu b st its).bind fun st' => relayLoop cpu b st' its' := by
  induction its generalizing st with
  | nil => rfl
  | cons it its ih =>
    simp only [List.cons_append, relayLoop, Option.bind_eq_bind]
    cases relayIteration cpu b st it with
    | none => rfl
    | some st1 => exact ih st1

/-- The relay is faithful: payloads, cleared bytes and counters over every sequence of results. -/
theorem relayLoop_faithful (s : State) (its : List Iteration) :
    (∃ st, relayLoop cpu b (startState s) its = some st ∧ st.payloads = delivered its ∧
      st.stats.packetsForwarded = BitVec.ofNat 64 (positiveSends its).length ∧
      st.stats.bytesForwarded = BitVec.ofInt 64 (positiveSends its).sum) ∧
    ∀ before it after d, its = before ++ it :: after → it.received = .datagram d →
      ∃ st, relayLoop cpu b (startState s) (before ++ [it]) = some st ∧
        readBytes st.machine.mem b.packetBuffer d.bytes.length = List.replicate d.bytes.length 0 := by
  constructor
  · obtain ⟨st, hrun, hpay, hpackets, hbytes⟩ := relayLoop_some cpu b (startState s) its
    refine ⟨st, hrun, hpay, ?_, ?_⟩
    · exact hpackets.trans (BitVec.zero_add _)
    · exact hbytes.trans (BitVec.zero_add _)
  · intro before it after d _ hd
    obtain ⟨st, hrun, _⟩ := relayLoop_some cpu b (startState s) before
    obtain ⟨st', hrun', _, _, hzero⟩ := relayIteration_datagram cpu b st hd
    refine ⟨st', ?_, hzero⟩
    rw [relayLoop_append, hrun, Option.bind_some]
    simp only [relayLoop, hrun', Option.bind_eq_bind, Option.bind_some]

end Loop

end Disping.Relay
