import Disping.Assembly.MemoryListing
import Disping.Machine.Memory
import Disping.Machine.Rules

/-! # Runs of the two clears

Both routines clear one window from its start: byte by byte until the pointer is
aligned, then by streaming stores of one width, then byte by byte again. The
cleared part of the window grows with every store, whatever route is taken.
-/
namespace Disping.Assembly
open Machine
variable {L : Type} (cpu : Cpu)

/-- Every streaming store issued after `log` is aligned to its width. -/
def StreamsAligned (log : List (Word × ℕ)) (s : State) : Prop :=
  ∃ issued, s.streamed = issued ++ log ∧ ∀ e ∈ issued, e.1.toNat % e.2 = 0

theorem StreamsAligned.refl (s : State) : StreamsAligned s.streamed s := ⟨[], rfl, by simp⟩

theorem StreamsAligned.keep {log : List (Word × ℕ)} {s u : State} (h : StreamsAligned log s)
    (hu : u.streamed = s.streamed) : StreamsAligned log u := by
  obtain ⟨issued, hs, hall⟩ := h
  exact ⟨issued, hu.trans hs, hall⟩

theorem StreamsAligned.stream {log : List (Word × ℕ)} {s u : State} {a : Word} {w : ℕ}
    (h : StreamsAligned log s) (hu : u.streamed = (a, w) :: s.streamed) (ha : a.toNat % w = 0) :
    StreamsAligned log u := by
  obtain ⟨issued, hs, hall⟩ := h
  refine ⟨(a, w) :: issued, by rw [hu, hs, List.cons_append], ?_⟩
  intro e he
  rcases List.mem_cons.mp he with rfl | he
  · exact ha
  · exact hall e he

/-- The first `done` bytes of the window are zero, the rest of memory is as it was. -/
structure Clearing (m : Memory) (dst n : Word) (log : List (Word × ℕ)) (done : ℕ) (s : State) : Prop where
  mem : s.mem = clear m dst done
  ptr : s.gpr .rcx = dst + BitVec.ofNat 64 done
  len : done + (s.gpr .rdx).toNat = n.toNat
  log : StreamsAligned log s

theorem Clearing.setFlags {m : Memory} {dst n : Word} {log : List (Word × ℕ)} {done : ℕ} {s : State}
    (h : Clearing m dst n log done s) (c z : Bool) : Clearing m dst n log done (s.setFlags c z) :=
  ⟨h.mem, h.ptr, h.len, h.log.keep rfl⟩

/-- The memory after a clear; a null destination is answered early. -/
def zeroed (m : Memory) (dst n : Word) : Memory := if dst = 0 then m else clear m dst n.toNat

def ZeroedState (m : Memory) (dst n : Word) (log : List (Word × ℕ)) (s : State) : Prop :=
  s.mem = zeroed m dst n ∧ StreamsAligned log s

/-- A streaming store that writes `w` zero bytes while the vector registers are as `zero` says. -/
def ZeroStore (st : Ea → Instr L) (w : ℕ) (zero : (Fin 16 → BitVec 256) → Prop) : Prop :=
  ∀ (s : State) (a : Ea), zero s.ymm → (s.ea a).toNat % w = 0 →
    exec cpu s (st a) = .next ((s.setMem (store s.mem (s.ea a) (0#(8 * w)))).stream (s.ea a) w)

def ymmZero (v : Fin 16 → BitVec 256) : Prop := v 0 = 0

def xmmZero (v : Fin 16 → BitVec 256) : Prop := (v 0).setWidth 128 = 0#128

theorem zeroStore_vmovntdq : ZeroStore cpu (fun a => (.vmovntdq a 0 : Instr L)) 32 ymmZero := by
  intro s a hzero hal
  have hz : s.ymm 0 = 0#(8 * 32) := hzero
  simp only [exec, if_pos hal, hz]

theorem zeroStore_movntdq : ZeroStore cpu (fun a => (.movntdq a 0 : Instr L)) 16 xmmZero := by
  intro s a hzero hal
  have hz : s.xmm 0 = 0#(8 * 16) := hzero
  simp only [exec, if_pos hal, hz]

/-- An instruction that establishes `zero` and changes vector registers only. -/
def Zeroing (i : Instr L) (zero : (Fin 16 → BitVec 256) → Prop) : Prop :=
  ∀ s : State, ∃ u, exec cpu s i = .next u ∧ u.gpr = s.gpr ∧ u.mem = s.mem ∧
    u.streamed = s.streamed ∧ zero u.ymm

theorem zeroing_vpxor : Zeroing cpu (.vpxor 0 : Instr L) ymmZero := by
  intro s
  exact ⟨_, rfl, rfl, rfl, rfl, by simp [ymmZero]⟩

theorem zeroing_pxor : Zeroing cpu (.pxor 0 : Instr L) xmmZero := by
  intro s
  exact ⟨s.setXmm 0 0, rfl, rfl, rfl, rfl, State.xmm_setXmm s 0 0 0#128⟩

section Blocks
variable {m : Memory} {dst n : Word} {log : List (Word × ℕ)} {done : ℕ} {s : State}
variable {T : L → State → Prop} {Q : State → Prop} {next : Option L}

def clearByte (again : L) : List (Instr L) := [
  .store8 (.off .rcx 0) (.imm 0), .inc .rcx, .dec .rdx, .jmp again]

theorem clearByte_again (again : L) (h : Clearing m dst n log done s) (hlen : s.gpr .rdx ≠ 0#64) :
    ∃ u, runBlock cpu s (clearByte again) = .jump again u ∧ Clearing m dst n log (done + 1) u ∧
      u.ymm = s.ymm ∧ (u.gpr .rdx).toNat < (s.gpr .rdx).toNat := by
  have hpos : (s.gpr .rdx).toNat ≠ 0 := fun h0 => hlen (BitVec.eq_of_toNat_eq h0)
  have hsub : (s.gpr .rdx - 1#64).toNat = (s.gpr .rdx).toNat - 1 :=
    toNat_sub_of_not_lt (k := 1#64) (by rw [BitVec.lt_def]; simpa using hpos)
  have hn := n.isLt
  have hdone := h.len
  have hstore : store s.mem (s.gpr .rcx) 0#8 = clear m dst (done + 1) := by
    rw [h.mem, h.ptr]
    exact store_clear m dst (w := 8) rfl (by omega)
  have hptr : s.gpr .rcx + 1 = dst + BitVec.ofNat 64 (done + 1) := by
    rw [h.ptr, BitVec.ofNat_add, BitVec.add_assoc]
    rfl
  simp only [clearByte, runBlock, exec, Outcome.jump.injEq, true_and, exists_eq_left']
  refine ⟨⟨?_, ?_, ?_, h.log.keep rfl⟩, rfl, ?_⟩
  · simpa [State.src] using hstore
  · simpa using hptr
  · simp [hsub]
    omega
  · simp [hsub]
    omega

/-- A null pointer or an empty window is left alone by both routines. -/
theorem ZeroedState.early (hm : s.mem = m) (h : dst = 0#64 ∨ n = 0#64)
    (hlog : s.streamed = log) : ZeroedState m dst n log s := by
  refine ⟨?_, hlog ▸ StreamsAligned.refl s⟩
  rcases h with hdst | hn
  · simp [zeroed, hdst, hm]
  · simp [zeroed, hn, hm]

/-- The early exits, and the zero register set up for the rest. -/
theorem clearEntry_lands {zeroing : Instr L} {zero : (Fin 16 → BitVec 256) → Prop} {finish after : L}
    (hz : Zeroing cpu zeroing zero) (hnext : next = some after) (hm : s.mem = m) (hrcx : s.gpr .rcx = dst)
    (hrdx : s.gpr .rdx = n) (hlog : s.streamed = log)
    (hfinish : ∀ u, ZeroedState m dst n log u → u.gpr .rdx = s.gpr .rdx → T finish u)
    (hafter : ∀ u, dst ≠ 0 → (∃ done, Clearing m dst n log done u) → zero u.ymm →
      u.gpr .rdx = s.gpr .rdx → T after u) :
    (runBlock cpu s (.test .rcx (.reg .rcx) :: .jcc .jz finish :: .test .rdx (.reg .rdx) ::
      .jcc .jz finish :: [zeroing])).Lands T Q next := by
  by_cases hnull : s.gpr .rcx = 0#64
  · rw [runBlock_test_zero cpu s hnull]
    exact hfinish _ (.early (s := s.setFlags false true) hm (.inl (hrcx ▸ hnull)) hlog) rfl
  · rw [runBlock_test_nonzero cpu s hnull]
    by_cases hempty : s.gpr .rdx = 0#64
    · rw [runBlock_test_zero cpu (s.setFlags false false) hempty]
      exact hfinish _ (.early (s := (s.setFlags false false).setFlags false true) hm
        (.inr (hrdx ▸ hempty)) hlog) rfl
    · rw [runBlock_test_nonzero cpu (s.setFlags false false) hempty]
      obtain ⟨u, hu, hgpr, hmem, hstream, hzero⟩ := hz ((s.setFlags false false).setFlags false false)
      rw [runBlock_cons_next cpu _ hu]
      have hgpr' : u.gpr = s.gpr := hgpr
      refine ⟨after, hnext, hafter u (hrcx ▸ hnull) ⟨0, ?_, ?_, ?_, ?_⟩ hzero (by rw [hgpr'])⟩
      · rw [clear_zero, hmem]
        exact hm
      · simpa [hgpr'] using hrcx
      · simp [hgpr', hrdx]
      · have hstream' : u.streamed = s.streamed := hstream
        exact ((hlog ▸ StreamsAligned.refl s : StreamsAligned log s)).keep hstream'

/-- `j` consecutive streaming stores from the pointer on. -/
def clearWide (st : Ea → Instr L) (w j : ℕ) : List (Instr L) :=
  (List.range j).map fun i => st (.off .rcx (BitVec.ofNat 64 (w * i)))

theorem clearWide_next {st : Ea → Instr L} {w : ℕ} {zero : (Fin 16 → BitVec 256) → Prop}
    (hst : ZeroStore cpu st w zero) (hw : w ∣ 2 ^ 64) (h : Clearing m dst n log done s)
    (hal : (s.gpr .rcx).toNat % w = 0) (hzero : zero s.ymm) (j : ℕ) (hj : done + w * j < 2 ^ 64) :
    ∃ u, runBlock cpu s (clearWide st w j) = .next u ∧ u.gpr = s.gpr ∧ u.ymm = s.ymm ∧
      u.mem = clear m dst (done + w * j) ∧ StreamsAligned log u := by
  induction j with
  | zero => exact ⟨s, rfl, rfl, rfl, by simpa using h.mem, h.log⟩
  | succ j ih =>
    have hsucc : w * (j + 1) = w * j + w := Nat.mul_succ w j
    obtain ⟨t, hrun, hgpr, hymm, hmem, hlog⟩ := ih (by omega)
    let ea := t.ea (.off .rcx (BitVec.ofNat 64 (w * j)))
    have hea : ea = dst + BitVec.ofNat 64 (done + w * j) := by
      simp only [ea, State.ea_off, hgpr, h.ptr, BitVec.ofNat_add, BitVec.add_assoc]
    have haligned : ea.toNat % w = 0 := by
      simp only [ea, State.ea_off, hgpr]
      rw [BitVec.toNat_add, BitVec.toNat_ofNat, Nat.add_mod_mod,
        Nat.mod_mod_of_dvd _ hw, Nat.add_mul_mod_self_left, hal]
    refine ⟨(t.setMem (store t.mem ea 0#(8 * w))).stream ea w, ?_, hgpr, hymm, ?_, ?_⟩
    · rw [clearWide, List.range_succ, List.map_append, ← clearWide, runBlock_append cpu s hrun,
        List.map_singleton, runBlock_cons_next cpu t (hst t _ (hymm ▸ hzero) haligned), runBlock_nil]
    · rw [State.mem_stream, State.mem_setMem, hmem, hea, hsucc, ← Nat.add_assoc]
      exact store_clear m dst (Nat.mul_div_cancel_left w (by norm_num)) (by omega)
    · exact hlog.stream rfl haligned

/-- What the block loops keep: an aligned pointer and the zero that they store. -/
def Streaming (m : Memory) (dst n : Word) (log : List (Word × ℕ)) (w : ℕ)
    (zero : (Fin 16 → BitVec 256) → Prop) (s : State) : Prop :=
  (∃ done, Clearing m dst n log done s) ∧ (s.gpr .rcx).toNat % w = 0 ∧ zero s.ymm

theorem clearLoop_lands {st : Ea → Instr L} {w : ℕ} {zero : (Fin 16 → BitVec 256) → Prop} {k : Word}
    {below again : L} (hst : ZeroStore cpu st w zero) (hw : w ∣ 2 ^ 64) (j : ℕ) (hj : 0 < w * j)
    (hk : k.toNat = w * j) (h : Streaming m dst n log w zero s)
    (hbelow : ∀ u, Streaming m dst n log w zero u → u.gpr .rdx = s.gpr .rdx → T below u)
    (hagain : ∀ u, Streaming m dst n log w zero u → (u.gpr .rdx).toNat < (s.gpr .rdx).toNat → T again u) :
    (runBlock cpu s (.cmp .rdx (.imm k) :: .jcc .jb below :: (clearWide st w j ++
      [.add .rcx (.imm k), .sub .rdx (.imm k), .jmp again]))).Lands T Q next := by
  obtain ⟨⟨done, hclear⟩, hal, hzero⟩ := h
  by_cases hlen : s.gpr .rdx < k
  · rw [runBlock_guard_below cpu s hlen]
    exact hbelow _ ⟨⟨done, hclear.setFlags _ _⟩, hal, hzero⟩ rfl
  · rw [runBlock_guard_enter cpu s hlen]
    have hle : w * j ≤ (s.gpr .rdx).toNat := by
      rw [BitVec.lt_def, hk] at hlen
      omega
    have hn := n.isLt
    have hdone := hclear.len
    have hsub : (s.gpr .rdx - k).toNat + w * j = (s.gpr .rdx).toNat := by
      rw [toNat_sub_of_not_lt hlen, hk, Nat.sub_add_cancel hle]
    have hkw : k = BitVec.ofNat 64 (w * j) := by rw [← hk, BitVec.ofNat_toNat, BitVec.setWidth_eq]
    obtain ⟨t, hrun, hgpr, hymm, hmem, hlog⟩ :=
      clearWide_next cpu hst hw (hclear.setFlags false (s.gpr .rdx == k)) hal hzero j (by omega)
    simp only [State.gpr_setFlags, State.ymm_setFlags] at hgpr hymm
    rw [runBlock_append cpu _ hrun]
    refine hagain _ ⟨⟨done + w * j, ?_, ?_, ?_, ?_⟩, ?_, ?_⟩ ?_
    · simpa [addition] using hmem
    · simp [addition, State.src, hgpr, hclear.ptr, hkw, BitVec.ofNat_add, BitVec.add_assoc]
    · have hrest : done + w * j + (s.gpr .rdx - k).toNat = n.toNat := by omega
      simpa [addition, State.src, hgpr] using hrest
    · exact hlog.keep rfl
    · have hmod : (s.gpr .rcx + BitVec.ofNat 64 (w * j)).toNat % w = 0 := by
        rw [BitVec.toNat_add, BitVec.toNat_ofNat, Nat.add_mod_mod, Nat.mod_mod_of_dvd _ hw,
          Nat.add_mul_mod_self_left, hal]
      simpa [addition, State.src, hgpr, hkw] using hmod
    · simpa [addition, hymm] using hzero
    · have hlt : (s.gpr .rdx - k).toNat < (s.gpr .rdx).toNat := by omega
      simpa [addition, State.src, hgpr] using hlt

/-- Byte by byte, until the window is used up. -/
theorem clearTail_lands {finish again : L} (h : ∃ done, Clearing m dst n log done s) (hdst : dst ≠ 0)
    (hfinish : ∀ u, ZeroedState m dst n log u → u.gpr .rdx = s.gpr .rdx → T finish u)
    (hagain : ∀ u, (∃ done, Clearing m dst n log done u) → u.ymm = s.ymm →
      (u.gpr .rdx).toNat < (s.gpr .rdx).toNat → T again u) :
    (runBlock cpu s (.test .rdx (.reg .rdx) :: .jcc .jz finish :: clearByte again)).Lands T Q next := by
  obtain ⟨done, hclear⟩ := h
  by_cases hlen : s.gpr .rdx = 0#64
  · rw [runBlock_test_zero cpu s hlen]
    have hall : done = n.toNat := by simpa [hlen] using hclear.len
    refine hfinish _ ⟨?_, hclear.log.keep rfl⟩ rfl
    rw [zeroed, if_neg hdst, ← hall]
    exact hclear.mem
  · rw [runBlock_test_nonzero cpu s hlen]
    obtain ⟨u, hrun, hu, hymm, hlt⟩ := clearByte_again cpu again (hclear.setFlags false false) hlen
    rw [hrun]
    exact hagain u ⟨done + 1, hu⟩ hymm hlt

/-- The alignment prologue, which may exhaust the size. -/
theorem clearAlign_lands {mask : Word} {w : ℕ} {zero : (Fin 16 → BitVec 256) → Prop}
    {aligned exhausted again : L} (hmask : ∀ x : Word, x &&& mask = 0#64 ↔ x.toNat % w = 0)
    (h : ∃ done, Clearing m dst n log done s) (hzero : zero s.ymm) (hdst : dst ≠ 0)
    (haligned : ∀ u, Streaming m dst n log w zero u → u.gpr .rdx = s.gpr .rdx → T aligned u)
    (hexhausted : ∀ u, ZeroedState m dst n log u → u.gpr .rdx = s.gpr .rdx → T exhausted u)
    (hagain : ∀ u, (∃ done, Clearing m dst n log done u) → zero u.ymm →
      (u.gpr .rdx).toNat < (s.gpr .rdx).toNat → T again u) :
    (runBlock cpu s (.test .rcx (.imm mask) :: .jcc .jz aligned :: .test .rdx (.reg .rdx) ::
      .jcc .jz exhausted :: clearByte again)).Lands T Q next := by
  obtain ⟨done, hclear⟩ := h
  by_cases hal : s.gpr .rcx &&& mask = 0#64
  · rw [runBlock_mask_zero cpu s hal]
    exact haligned _ ⟨⟨done, hclear.setFlags _ _⟩, (hmask _).mp hal, hzero⟩ rfl
  · rw [runBlock_mask_nonzero cpu s hal]
    exact clearTail_lands cpu ⟨done, hclear.setFlags _ _⟩ hdst hexhausted
      (fun u hu hymm => hagain u hu (hymm ▸ hzero))

end Blocks

end Disping.Assembly
