import Disping.Assembly.MemzeroRuns

/-! # Runs of the copy

The copied part of the destination grows from its start. Every block loads
before it stores, and the source stays readable because the windows are apart.
-/
namespace Disping.Assembly
open Machine
variable {L : Type} (cpu : Cpu)

/-- The first `done` bytes are copied, the rest of memory is as it was. -/
structure Copying (m : Memory) (dst src n : Word) (log : List (Word × ℕ)) (done : ℕ) (s : State) : Prop where
  mem : s.mem = copy m m dst src done
  ptr : s.gpr .rcx = dst + BitVec.ofNat 64 done
  from_ptr : s.gpr .rdx = src + BitVec.ofNat 64 done
  len : done + (s.gpr .r8).toNat = n.toNat
  log : StreamsAligned log s

theorem Copying.setFlags {m : Memory} {dst src n : Word} {log : List (Word × ℕ)} {done : ℕ} {s : State}
    (h : Copying m dst src n log done s) (c z : Bool) : Copying m dst src n log done (s.setFlags c z) :=
  ⟨h.mem, h.ptr, h.from_ptr, h.len, h.log.keep rfl⟩

/-- The memory after a copy; null pointers are answered early. -/
def copied (m : Memory) (dst src n : Word) : Memory :=
  if dst = 0 ∨ src = 0 then m else copy m m dst src n.toNat

def CopiedState (m : Memory) (dst src n : Word) (log : List (Word × ℕ)) (s : State) : Prop :=
  s.mem = copied m dst src n ∧ StreamsAligned log s

section Blocks
variable {m : Memory} {dst src n : Word} {log : List (Word × ℕ)} {done : ℕ} {s : State}
variable {T : L → State → Prop} {Q : State → Prop} {next : Option L}

def loadWide (j : ℕ) : List (Instr L) :=
  (List.range j).map fun i => .vmovdqu (Fin.ofNat 16 i) (.off .rdx (BitVec.ofNat 64 (32 * i)))

def storeWide (j : ℕ) : List (Instr L) :=
  (List.range j).map fun i => .vmovntdq (.off .rcx (BitVec.ofNat 64 (32 * i))) (Fin.ofNat 16 i)

theorem loadWide_next (s : State) (j : ℕ) (hj : j ≤ 16) : ∃ u,
    runBlock cpu s (loadWide (L := L) j) = .next u ∧ u.gpr = s.gpr ∧ u.mem = s.mem ∧
      u.streamed = s.streamed ∧
      ∀ i < j, u.ymm (Fin.ofNat 16 i) = load 256 s.mem (s.gpr .rdx + BitVec.ofNat 64 (32 * i)) := by
  induction j with
  | zero => exact ⟨s, rfl, rfl, rfl, rfl, by simp⟩
  | succ j ih =>
    obtain ⟨t, hrun, hgpr, hmem, hstream, hymm⟩ := ih (by omega)
    let v := load 256 s.mem (s.gpr .rdx + BitVec.ofNat 64 (32 * j))
    refine ⟨t.setYmm (Fin.ofNat 16 j) v, ?_, hgpr, hmem, hstream, ?_⟩
    · have hexec : exec (L := L) cpu t (.vmovdqu (Fin.ofNat 16 j) (.off .rdx (BitVec.ofNat 64 (32 * j)))) =
          .next (t.setYmm (Fin.ofNat 16 j) v) := by simp only [exec, State.ea_off, hmem, hgpr, v]
      rw [loadWide, List.range_succ, List.map_append, ← loadWide, runBlock_append cpu s hrun,
        List.map_singleton, runBlock_cons_next cpu t hexec, runBlock_nil]
    · intro i hi
      by_cases hij : i = j
      · simp [hij, v]
      · have hne : Fin.ofNat 16 i ≠ Fin.ofNat 16 j := by
          intro h
          have hval := congrArg Fin.val h
          simp only [Fin.val_ofNat, Nat.mod_eq_of_lt (show i < 16 by omega),
            Nat.mod_eq_of_lt (show j < 16 by omega)] at hval
          exact hij hval
        rw [State.ymm_setYmm, if_neg hne]
        exact hymm i (by omega)

theorem storeWide_next (h : Copying m dst src n log done s) (hal : (s.gpr .rcx).toNat % 32 = 0) (j : ℕ)
    (hymm : ∀ i < j, s.ymm (Fin.ofNat 16 i) = load 256 m (src + BitVec.ofNat 64 (done + 32 * i)))
    (hj : done + 32 * j < 2 ^ 64) :
    ∃ u, runBlock cpu s (storeWide (L := L) j) = .next u ∧ u.gpr = s.gpr ∧ u.ymm = s.ymm ∧
      u.mem = copy m m dst src (done + 32 * j) ∧ StreamsAligned log u := by
  induction j with
  | zero => exact ⟨s, rfl, rfl, rfl, by simpa using h.mem, h.log⟩
  | succ j ih =>
    obtain ⟨t, hrun, hgpr, hkeep, hmem, hlog⟩ := ih (fun i hi => hymm i (by omega)) (by omega)
    let ea := t.ea (.off .rcx (BitVec.ofNat 64 (32 * j)))
    have hea : ea = dst + BitVec.ofNat 64 (done + 32 * j) := by
      simp only [ea, State.ea_off, hgpr, h.ptr, BitVec.ofNat_add, BitVec.add_assoc]
    have haligned : ea.toNat % 32 = 0 := by
      simp only [ea, State.ea_off, hgpr]
      rw [BitVec.toNat_add, BitVec.toNat_ofNat]
      omega
    refine ⟨(t.setMem (store t.mem ea (t.ymm (Fin.ofNat 16 j)))).stream ea 32, ?_, hgpr, hkeep, ?_, ?_⟩
    · have hexec : exec (L := L) cpu t (.vmovntdq (.off .rcx (BitVec.ofNat 64 (32 * j))) (Fin.ofNat 16 j)) =
          .next ((t.setMem (store t.mem ea (t.ymm (Fin.ofNat 16 j)))).stream ea 32) := by
        simp only [exec, ea, if_pos haligned]
      rw [storeWide, List.range_succ, List.map_append, ← storeWide, runBlock_append cpu s hrun,
        List.map_singleton, runBlock_cons_next cpu t hexec, runBlock_nil]
    · rw [State.mem_stream, State.mem_setMem, hmem, hea, hkeep, hymm j (by omega),
        show done + 32 * (j + 1) = done + 32 * j + 32 by omega]
      exact store_copy m m dst src (k := 32) (by omega)
    · exact hlog.stream rfl haligned

/-- What the block loops keep: a window long enough to need them is aligned. -/
def CopyingAligned (m : Memory) (dst src n : Word) (log : List (Word × ℕ)) (s : State) : Prop :=
  (∃ done, Copying m dst src n log done s) ∧
    ((s.gpr .rcx).toNat % 32 = 0 ∨ (s.gpr .r8).toNat < 32)

theorem copyLoop_lands {k : Word} {below again : L} (j : ℕ) (hj : 0 < j) (hj' : j ≤ 16)
    (hk : k.toNat = 32 * j) (happ : Apart dst src n.toNat) (h : CopyingAligned m dst src n log s)
    (hbelow : ∀ u, CopyingAligned m dst src n log u → u.gpr .r8 = s.gpr .r8 → T below u)
    (hagain : ∀ u, CopyingAligned m dst src n log u → (u.gpr .r8).toNat < (s.gpr .r8).toNat → T again u) :
    (runBlock cpu s (.cmp .r8 (.imm k) :: .jcc .jb below :: (loadWide j ++ (storeWide j ++
      [.add .rcx (.imm k), .add .rdx (.imm k), .sub .r8 (.imm k), .jmp again])))).Lands T Q next := by
  obtain ⟨⟨done, hcopy⟩, hal⟩ := h
  by_cases hlen : s.gpr .r8 < k
  · rw [runBlock_guard_below cpu s hlen]
    exact hbelow _ ⟨⟨done, hcopy.setFlags _ _⟩, hal⟩ rfl
  · rw [runBlock_guard_enter cpu s hlen]
    have hle : 32 * j ≤ (s.gpr .r8).toNat := by
      rw [BitVec.lt_def, hk] at hlen
      omega
    have hal' : (s.gpr .rcx).toNat % 32 = 0 := hal.resolve_right (by omega)
    have hn := n.isLt
    have hdone := hcopy.len
    have hsub : (s.gpr .r8 - k).toNat + 32 * j = (s.gpr .r8).toNat := by
      rw [toNat_sub_of_not_lt hlen, hk]
      omega
    have hkw : k = BitVec.ofNat 64 (32 * j) := by rw [← hk, BitVec.ofNat_toNat, BitVec.setWidth_eq]
    obtain ⟨t, hrun, hgpr, hmem, hstream, hymm⟩ :=
      loadWide_next (L := L) cpu (s.setFlags false (s.gpr .r8 == k)) j hj'
    simp only [State.gpr_setFlags, State.mem_setFlags, State.streamed_setFlags] at hgpr hmem hstream hymm
    have hcopy' : Copying m dst src n log done t :=
      ⟨hmem.trans hcopy.mem, hgpr ▸ hcopy.ptr, hgpr ▸ hcopy.from_ptr, hgpr ▸ hcopy.len,
        hcopy.log.keep hstream⟩
    -- the source has not been written, so the loads read the initial memory
    have hsource : ∀ i < j, t.ymm (Fin.ofNat 16 i) = load 256 m (src + BitVec.ofNat 64 (done + 32 * i)) := by
      intro i hi
      rw [hymm i hi, hcopy.mem, hcopy.from_ptr, BitVec.add_assoc, ← BitVec.ofNat_add]
      exact load_copy m m dst src (k := 32) happ (by omega) (by omega)
    obtain ⟨u, hrun', hgpr', _, hmem', hlog'⟩ :=
      storeWide_next (L := L) cpu hcopy' (hgpr ▸ hal') j hsource (by omega)
    rw [runBlock_append cpu _ hrun, runBlock_append cpu _ hrun']
    have hrest : done + 32 * j + (s.gpr .r8 - k).toNat = n.toNat := by omega
    have hmod : (s.gpr .rcx + k).toNat % 32 = 0 := by
      rw [BitVec.toNat_add, hk]
      omega
    refine hagain _ ⟨⟨done + 32 * j, ?_, ?_, ?_, ?_, hlog'.keep rfl⟩, .inl ?_⟩ ?_
    · simpa [addition] using hmem'
    · simp [addition, State.src, hgpr', hgpr, hcopy.ptr, hkw, BitVec.ofNat_add, BitVec.add_assoc]
    · simp [addition, State.src, hgpr', hgpr, hcopy.from_ptr, hkw, BitVec.ofNat_add, BitVec.add_assoc]
    · simpa [addition, State.src, hgpr', hgpr] using hrest
    · simpa [addition, State.src, hgpr', hgpr] using hmod
    · have hlt : (s.gpr .r8 - k).toNat < (s.gpr .r8).toNat := by omega
      simpa [addition, State.src, hgpr', hgpr] using hlt

def copyByte (again : L) : List (Instr L) := [
  .mov8 .rax (.mem (.off .rdx 0)), .store8 (.off .rcx 0) (.reg .rax),
  .inc .rcx, .inc .rdx, .dec .r8, .jmp again]

theorem copyByte_again (again : L) (happ : Apart dst src n.toNat) (h : Copying m dst src n log done s)
    (hlen : s.gpr .r8 ≠ 0#64) :
    ∃ u, runBlock cpu s (copyByte again) = .jump again u ∧ Copying m dst src n log (done + 1) u ∧
      (u.gpr .r8).toNat < (s.gpr .r8).toNat := by
  have hpos : (s.gpr .r8).toNat ≠ 0 := fun h0 => hlen (BitVec.eq_of_toNat_eq h0)
  have hsub : (s.gpr .r8 - 1#64).toNat = (s.gpr .r8).toNat - 1 :=
    toNat_sub_of_not_lt (k := 1#64) (by rw [BitVec.lt_def]; simpa using hpos)
  have hn := n.isLt
  have hdone := h.len
  have hload : load 8 s.mem (s.gpr .rdx) = load 8 m (src + BitVec.ofNat 64 done) := by
    rw [h.mem, h.from_ptr]
    exact load_copy m m dst src (k := 1) happ (by omega) (by omega)
  have hstore : store s.mem (s.gpr .rcx) (load 8 s.mem (s.gpr .rdx)) = copy m m dst src (done + 1) := by
    rw [hload, h.mem, h.ptr]
    exact store_copy m m dst src (k := 1) (by omega)
  have hptr : ∀ p : Word, p + BitVec.ofNat 64 done + 1 = p + BitVec.ofNat 64 (done + 1) := by
    intro p
    rw [BitVec.ofNat_add, BitVec.add_assoc]
    rfl
  simp only [copyByte, runBlock, exec, Outcome.jump.injEq, true_and, exists_eq_left']
  refine ⟨⟨?_, ?_, ?_, ?_, h.log.keep rfl⟩, ?_⟩
  · simpa [State.src, State.gpr_setLow_self] using hstore
  · simpa [h.ptr] using hptr dst
  · simpa [h.from_ptr] using hptr src
  · simp [hsub]
    omega
  · simp [hsub]
    omega

theorem copyTail_lands {finish again : L} (happ : Apart dst src n.toNat)
    (h : ∃ done, Copying m dst src n log done s) (hnull : ¬ (dst = 0 ∨ src = 0))
    (hfinish : ∀ u, CopiedState m dst src n log u → u.gpr .r8 = s.gpr .r8 → T finish u)
    (hagain : ∀ u, (∃ done, Copying m dst src n log done u) →
      (u.gpr .r8).toNat < (s.gpr .r8).toNat → T again u) :
    (runBlock cpu s (.test .r8 (.reg .r8) :: .jcc .jz finish :: copyByte again)).Lands T Q next := by
  obtain ⟨done, hcopy⟩ := h
  by_cases hlen : s.gpr .r8 = 0#64
  · rw [runBlock_test_zero cpu s hlen]
    have hall : done = n.toNat := by simpa [hlen] using hcopy.len
    refine hfinish _ ⟨?_, hcopy.log.keep rfl⟩ rfl
    rw [copied, if_neg hnull, ← hall]
    exact hcopy.mem
  · rw [runBlock_test_nonzero cpu s hlen]
    obtain ⟨u, hrun, hu, hlt⟩ := copyByte_again cpu again happ (hcopy.setFlags false false) hlen
    rw [hrun]
    exact hagain u ⟨done + 1, hu⟩ hlt

end Blocks

section Table
variable (m : Memory) (dst src n : Word) (log : List (Word × ℕ))

def memcpyTable : Avx2MemcpyLabel → State → Prop
  | .entry, s => s.mem = m ∧ s.gpr .rcx = dst ∧ s.gpr .rdx = src ∧ s.gpr .r8 = n ∧ s.streamed = log
  | .cpLoop128, s | .cpLoop32, s => ¬ (dst = 0 ∨ src = 0) ∧ CopyingAligned m dst src n log s
  | .cpTail, s => ¬ (dst = 0 ∨ src = 0) ∧ ∃ done, Copying m dst src n log done s
  | .cpFinish, s | .cpDone, s => CopiedState m dst src n log s

def memcpyRank : Avx2MemcpyLabel → ℕ
  | .entry => 5 | .cpLoop128 => 4 | .cpLoop32 => 3 | .cpTail => 2 | .cpFinish => 1 | .cpDone => 0

def memcpyMeasure (l : Avx2MemcpyLabel) (s : State) : ℕ := 8 * (s.gpr .r8).toNat + memcpyRank l

theorem asmAvx2MemcpyNt_cpLoop128 : asmAvx2MemcpyNt.code .cpLoop128 =
    .cmp .r8 (.imm 128) :: .jcc .jb .cpLoop32 :: (loadWide 4 ++ (storeWide 4 ++
      [.add .rcx (.imm 128), .add .rdx (.imm 128), .sub .r8 (.imm 128), .jmp .cpLoop128])) := rfl

theorem asmAvx2MemcpyNt_cpLoop32 : asmAvx2MemcpyNt.code .cpLoop32 =
    .cmp .r8 (.imm 32) :: .jcc .jb .cpTail :: (loadWide 1 ++ (storeWide 1 ++
      [.add .rcx (.imm 32), .add .rdx (.imm 32), .sub .r8 (.imm 32), .jmp .cpLoop32])) := rfl

theorem memcpyEntry_lands (s : State) (hal : dst.toNat % 32 = 0 ∨ n.toNat < 32)
    (h : memcpyTable m dst src n log .entry s) :
    (runBlock cpu s (asmAvx2MemcpyNt.code .entry)).Lands (fun l u => memcpyTable m dst src n log l u ∧
      memcpyMeasure l u < memcpyMeasure .entry s) Q (some .cpLoop128) := by
  obtain ⟨hm, hrcx, hrdx, hr8, hlog⟩ := h
  have hstream : ∀ c z : Bool, StreamsAligned log (s.setFlags c z) := fun c z =>
    (hlog ▸ StreamsAligned.refl s : StreamsAligned log s).keep rfl
  by_cases hdst : dst = 0#64
  · simpa [asmAvx2MemcpyNt, runBlock, exec, State.condition, State.src, Outcome.Lands, hrcx, hdst,
      memcpyTable, memcpyMeasure, memcpyRank, CopiedState, copied, hm] using hstream false true
  by_cases hsrc : src = 0#64
  · simpa [asmAvx2MemcpyNt, runBlock, exec, State.condition, State.src, Outcome.Lands, hrcx, hdst, hrdx,
      hsrc, memcpyTable, memcpyMeasure, memcpyRank, CopiedState, copied, hm] using hstream false true
  by_cases hn : n = 0#64
  · simpa [asmAvx2MemcpyNt, runBlock, exec, State.condition, State.src, Outcome.Lands, hrcx, hdst, hrdx,
      hsrc, hr8, hn, memcpyTable, memcpyMeasure, memcpyRank, CopiedState, copied, hm] using hstream false true
  · have hstart : ∃ done, Copying m dst src n log done (s.setFlags false (n == 0#64)) :=
      ⟨0, by simpa using hm, by simpa using hrcx, by simpa using hrdx, by simp [hr8], hstream false _⟩
    simpa [asmAvx2MemcpyNt, runBlock, exec, State.condition, State.src, Outcome.Lands, hrcx, hdst, hrdx,
      hsrc, hr8, hn, memcpyTable, memcpyMeasure, memcpyRank, CopyingAligned, hal] using hstart

theorem memcpyBlock_lands (happ : Apart dst src n.toNat) (hal : dst.toNat % 32 = 0 ∨ n.toNat < 32)
    (l : Avx2MemcpyLabel) (s : State) (h : memcpyTable m dst src n log l s) :
    (runBlock cpu s (asmAvx2MemcpyNt.code l)).Lands (fun l' u => memcpyTable m dst src n log l' u ∧
      memcpyMeasure l' u < memcpyMeasure l s) (CopiedState m dst src n log) (asmAvx2MemcpyNt.fall l) := by
  cases l with
  | entry => exact memcpyEntry_lands cpu m dst src n log s hal h
  | cpLoop128 =>
    rw [asmAvx2MemcpyNt_cpLoop128]
    refine copyLoop_lands cpu 4 (by norm_num) (by norm_num) rfl happ h.2
      (fun u hu hr8 => ⟨⟨h.1, hu⟩, ?_⟩) (fun u hu hlt => ⟨⟨h.1, hu⟩, ?_⟩)
    · simp [memcpyMeasure, memcpyRank, hr8]
    · simp only [memcpyMeasure, memcpyRank]
      omega
  | cpLoop32 =>
    rw [asmAvx2MemcpyNt_cpLoop32]
    refine copyLoop_lands cpu 1 (by norm_num) (by norm_num) rfl happ h.2
      (fun u hu hr8 => ⟨⟨h.1, hu.1⟩, ?_⟩) (fun u hu hlt => ⟨⟨h.1, hu⟩, ?_⟩)
    · simp [memcpyMeasure, memcpyRank, hr8]
    · simp only [memcpyMeasure, memcpyRank]
      omega
  | cpTail =>
    refine copyTail_lands cpu happ h.2 h.1 (fun u hu hr8 => ⟨hu, ?_⟩) (fun u hu hlt => ⟨⟨h.1, hu⟩, ?_⟩)
    · simp [memcpyMeasure, memcpyRank, hr8]
    · simp only [memcpyMeasure, memcpyRank]
      omega
  | cpFinish =>
    refine ⟨.cpDone, rfl, ⟨h.1, h.2.keep rfl⟩, ?_⟩
    simp [memcpyMeasure, memcpyRank]
  | cpDone => exact ⟨h.1, h.2.keep rfl⟩

/-- The copy of a window into one apart from it, aligned when it is long enough for a block. -/
theorem asmAvx2MemcpyNt_returns {s : State} (hdst : s.gpr .rcx = dst) (hsrc : s.gpr .rdx = src)
    (hn : s.gpr .r8 = n) (happ : Apart dst src n.toNat) (hal : dst.toNat % 32 = 0 ∨ n.toNat < 32) :
    ∃ t, asmAvx2MemcpyNt.run cpu (8 * n.toNat + 8) .entry s = some t ∧
      CopiedState s.mem dst src n s.streamed t := by
  refine asmAvx2MemcpyNt.run_of_table cpu (memcpyBlock_lands cpu s.mem dst src n s.streamed happ hal)
    _ _ s ⟨rfl, hdst, hsrc, hn, rfl⟩ ?_
  simp only [memcpyMeasure, memcpyRank, hn]
  omega

end Table

end Disping.Assembly
