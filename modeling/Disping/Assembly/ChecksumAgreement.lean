import Disping.Assembly.ChecksumRuns

/-! # The checksum routines return one value

Each routine has a table that carries the split sum from label to label. Both
tables end in the same value, so the two routines agree on every buffer.
-/
namespace Disping.Assembly
open Machine Arithmetic
variable {L : Type} (cpu : Cpu) {m : Memory} {a n : Word} {accs : Finset Reg} {s : State}
variable {T : L → State → Prop} {Q : State → Prop} {next : Option L}

section SharedBlocks

theorem loop8_lands {below again : L} (h : Summing m a n accs s) (h8 : .r8 ∈ accs)
    (haccs : accs ⊆ {.r8, .r10})
    (hbelow : ∀ u, Summing m a n accs u → u.gpr .rdx = s.gpr .rdx → T below u)
    (hagain : ∀ u, Summing m a n accs u → (u.gpr .rdx).toNat < (s.gpr .rdx).toNat → T again u) :
    (runBlock cpu s (.cmp .rdx (.imm 8) :: .jcc .jb below :: loop8Block again)).Lands T Q next := by
  by_cases hlen : s.gpr .rdx < 8
  · rw [runBlock_guard_below cpu s hlen]
    exact hbelow _ h rfl
  · rw [runBlock_guard_enter cpu s hlen]
    obtain ⟨u, hrun, hstep⟩ := loop8Block_again cpu (s.setFlags false (s.gpr .rdx == 8)) again rfl
    obtain ⟨hsum, hrdx⟩ := Summing.short (k := 4) (s := s.setFlags false (s.gpr .rdx == 8)) h hstep
      h8 haccs (toNat_load _ _ 8) (by norm_num) hlen
    rw [hrun]
    exact hagain u hsum (by change _ + 2 * 4 = (s.gpr .rdx).toNat at hrdx; omega)

theorem loop2_lands {below again : L} (h : Summing m a n accs s) (h8 : .r8 ∈ accs)
    (haccs : accs ⊆ {.r8, .r10})
    (hbelow : ∀ u, Summing m a n accs u → u.gpr .rdx = s.gpr .rdx → (u.gpr .rdx).toNat < 2 → T below u)
    (hagain : ∀ u, Summing m a n accs u → (u.gpr .rdx).toNat < (s.gpr .rdx).toNat → T again u) :
    (runBlock cpu s (.cmp .rdx (.imm 2) :: .jcc .jb below :: loop2Block again)).Lands T Q next := by
  by_cases hlen : s.gpr .rdx < 2
  · rw [runBlock_guard_below cpu s hlen]
    exact hbelow _ h rfl hlen
  · rw [runBlock_guard_enter cpu s hlen]
    obtain ⟨u, hrun, hstep⟩ := loop2Block_again cpu (s.setFlags false (s.gpr .rdx == 2)) again rfl
    have hy : ((load 16 s.mem (s.gpr .rcx)).setWidth 64).toNat = loadNat s.mem (s.gpr .rcx) 2 := by
      rw [BitVec.toNat_setWidth, toNat_load s.mem _ 2, Nat.mod_eq_of_lt]
      exact Nat.lt_trans (loadNat_lt _ _ 2) (by norm_num)
    obtain ⟨hsum, hrdx⟩ := Summing.short (k := 1) (s := s.setFlags false (s.gpr .rdx == 2)) h hstep
      h8 haccs hy (by norm_num) hlen
    rw [hrun]
    exact hagain u hsum (by change _ + 2 * 1 = (s.gpr .rdx).toNat at hrdx; omega)

theorem toNat_oddWord (b : BitVec 8) : (oddWord b).toNat = 256 * b.toNat := by
  have hb := b.isLt
  simp only [oddWord, BitVec.toNat_setWidth, BitVec.toNat_shiftLeft, Nat.shiftLeft_eq]
  omega

/-- Either nothing is left or the odd byte is added; nothing is left after that. -/
theorem loop1_lands {below after : L} (h : Summing m a n accs s) (hlt : (s.gpr .rdx).toNat < 2)
    (h8 : .r8 ∈ accs) (haccs : accs ⊆ {.r8, .r10}) (hnext : next = some after)
    (hdone : ∀ l u, l = below ∨ l = after → OnesEq 16 (total accs u) (wordSum m a n.toNat) →
      u.gpr .rdx = s.gpr .rdx → T l u) :
    (runBlock cpu s (.cmp .rdx (.imm 1) :: .jcc .jb below :: loop1Block)).Lands T Q next := by
  obtain ⟨_, hm, hsum⟩ := h
  by_cases hlen : s.gpr .rdx < 1
  · rw [runBlock_guard_below cpu s hlen]
    have hzero : (s.gpr .rdx).toNat = 0 := by
      rw [BitVec.lt_def] at hlen
      simpa using hlen
    rw [hzero, wordSum, Nat.add_zero] at hsum
    exact hdone below _ (.inl rfl) hsum rfl
  · rw [runBlock_guard_enter cpu s hlen]
    obtain ⟨u, hrun, hstep⟩ := loop1Block_next (L := L) cpu (s.setFlags false (s.gpr .rdx == 1))
    have hone : (s.gpr .rdx).toNat = 1 := by
      have hlen' : ¬ (s.gpr .rdx).toNat < 1 := hlen
      omega
    have hbyte : (load 8 s.mem (s.gpr .rcx)).toNat = (s.mem (s.gpr .rcx)).toNat := by
      rw [toNat_load s.mem _ 1]
      simp [loadNat]
    have habs := (hstep.absorbs h8 haccs).sum.of_dvd (j := 16) (by norm_num)
    rw [toNat_oddWord] at habs
    rw [hrun]
    refine ⟨after, hnext, hdone after u (.inr rfl) (habs.trans ?_) (by rw [hstep.len]; simp)⟩
    rw [hone, wordSum, ← hm] at hsum
    rw [← hm]
    exact hbyte ▸ hsum

end SharedBlocks

section Avx2
variable (m a n)

def avx2Table : Avx2ChecksumLabel → State → Prop
  | .entry, s => s.mem = m ∧ s.gpr .rcx = a ∧ s.gpr .rdx = n
  | .loop128, s | .loop64, s | .loop8, s | .loop2, s => Summing m a n {.r8, .r10} s
  | .loop1, s => Summing m a n {.r8, .r10} s ∧ (s.gpr .rdx).toNat < 2
  | .foldAccumulators, s => ¬ (a = 0 ∨ n = 0) ∧
      OnesEq 16 (total {.r8, .r10} s) (wordSum m a n.toNat)
  | .retZero, _ => a = 0 ∨ n = 0

def avx2Rank : Avx2ChecksumLabel → ℕ
  | .entry => 7 | .loop128 => 6 | .loop64 => 5 | .loop8 => 4 | .loop2 => 3 | .loop1 => 2
  | .foldAccumulators => 1 | .retZero => 0

def avx2Measure (l : Avx2ChecksumLabel) (s : State) : ℕ := 8 * (s.gpr .rdx).toNat + avx2Rank l

theorem asmAvx2Checksum_loop128 : asmAvx2Checksum.code .loop128 =
    .cmp .rdx (.imm 128) :: .jcc .jb .loop64 :: ((adcChain .rcx (dualEntries 8) ++
      [.adc .r8 (.imm 0), .adc .r10 (.imm 0)]) ++ (advance 128 ++ [.jcc .jnz .loop128])) := rfl

theorem asmAvx2Checksum_loop64 : asmAvx2Checksum.code .loop64 =
    .cmp .rdx (.imm 64) :: .jcc .jb .loop8 :: ((adcChain .rcx (dualEntries 4) ++
      [.adc .r8 (.imm 0), .adc .r10 (.imm 0)]) ++ (advance 64 ++ [])) := rfl

theorem avx2Entry_lands (s : State) (h : avx2Table m a n .entry s) :
    (runBlock cpu s (asmAvx2Checksum.code .entry)).Lands
      (fun l u => avx2Table m a n l u ∧ avx2Measure l u < avx2Measure .entry s) Q (some .loop128) := by
  obtain ⟨hm, ha, hn⟩ := h
  by_cases hnull : a = 0#64
  · simp [asmAvx2Checksum, runBlock, exec, State.condition, State.src, State.setReg32, logic,
      Outcome.Lands, ha, hnull, avx2Table, avx2Measure, avx2Rank]
  by_cases hempty : n = 0#64
  · simp [asmAvx2Checksum, runBlock, exec, State.condition, State.src, State.setReg32, logic,
      Outcome.Lands, ha, hnull, hn, hempty, avx2Table, avx2Measure, avx2Rank]
  · simp [asmAvx2Checksum, runBlock, exec, State.condition, State.src, State.setReg32, logic,
      Outcome.Lands, ha, hnull, hn, hempty, avx2Table, avx2Measure, avx2Rank, Summing, Remaining,
      total, hm, OnesEq.refl]

/-- A wide block of two accumulators, up to the jump that may close its loop. -/
theorem dualBlock_next {s : State} (j : ℕ) {k : Word} (hk : k = BitVec.ofNat 64 (8 * (2 * j)))
    (hj : 8 * (2 * j) < 2 ^ 64) (h : Summing m a n {.r8, .r10} s) (hcf : s.cf = false)
    (hlen : ¬ s.gpr .rdx < k) (rest : List (Instr L)) :
    ∃ u, runBlock cpu s ((adcChain .rcx (dualEntries j) ++ [.adc .r8 (.imm 0), .adc .r10 (.imm 0)]) ++
        (advance k ++ rest)) = runBlock cpu u rest ∧
      Summing m a n {.r8, .r10} u ∧ (u.gpr .rdx).toNat + 8 * (2 * j) = (s.gpr .rdx).toNat := by
  subst hk
  obtain ⟨t, ht, hstep⟩ := dualChain_next (L := L) cpu s j hcf
  obtain ⟨u, hu, hmem, hptr, hrdx, _, hgpr⟩ :=
    advance_next (L := L) cpu t (BitVec.ofNat 64 (8 * (2 * j)))
  refine ⟨u, ?_, h.wide hstep (by simp) hmem hptr hrdx hgpr hj hlen⟩
  rw [runBlock_append cpu s ht, runBlock_append cpu t hu]

/-- The two accumulators are added with their own carry before the common folds. -/
theorem avx2Fold_lands (T : Avx2ChecksumLabel → State → Prop) (s : State)
    (h : avx2Table m a n .foldAccumulators s) :
    (runBlock cpu s (asmAvx2Checksum.code .foldAccumulators)).Lands T (Answered m a n)
      (some .retZero) := by
  have hjoin : ∃ t, runBlock (L := Avx2ChecksumLabel) cpu s [.add .r8 (.reg .r10), .adc .r8 (.imm 0)] =
      .next t ∧ t.gpr .r8 = endAround (s.gpr .r8) (s.gpr .r10) := by
    simp [runBlock, exec, State.src, addition, endAround]
  obtain ⟨t, ht, h8⟩ := hjoin
  obtain ⟨u, hu, hrax⟩ := foldBlock_ret (L := Avx2ChecksumLabel) cpu t
  have hsum : OnesEq 16 (t.gpr .r8).toNat (wordSum m a n.toNat) := by
    rw [h8]
    refine ((endAround_onesEq _ _).of_dvd (by norm_num)).trans ?_
    simpa [total] using h.2
  have hcode : asmAvx2Checksum.code .foldAccumulators =
      [.add .r8 (.reg .r10), .adc .r8 (.imm 0)] ++ foldBlock := rfl
  rw [hcode, runBlock_append cpu s ht, hu]
  show u.gpr .rax = _
  rw [hrax, fold_eq_onesFold hsum, checksumValue, if_neg h.1]

theorem avx2Block_lands (l : Avx2ChecksumLabel) (s : State) (h : avx2Table m a n l s) :
    (runBlock cpu s (asmAvx2Checksum.code l)).Lands
      (fun l' u => avx2Table m a n l' u ∧ avx2Measure l' u < avx2Measure l s)
      (Answered m a n) (asmAvx2Checksum.fall l) := by
  cases l with
  | entry => exact avx2Entry_lands cpu m a n s h
  | loop128 =>
    rw [asmAvx2Checksum_loop128]
    by_cases hlen : s.gpr .rdx < 128
    · rw [runBlock_guard_below cpu s hlen]
      exact ⟨h, by simp [avx2Measure, avx2Rank]⟩
    · rw [runBlock_guard_enter cpu s hlen]
      obtain ⟨u, hu, hsum, hrdx⟩ := dualBlock_next cpu m a n 8 (k := 128) rfl (by norm_num)
        (s := s.setFlags false (s.gpr .rdx == 128)) h rfl hlen ([.jcc .jnz .loop128] : List (Instr Avx2ChecksumLabel))
      have hrdx' : (u.gpr .rdx).toNat + 128 = (s.gpr .rdx).toNat := hrdx
      rw [hu]
      apply lands_jcc (show _ = some Avx2ChecksumLabel.loop64 from rfl)
      · refine ⟨hsum, ?_⟩
        simp only [avx2Measure, avx2Rank]
        omega
      · refine ⟨hsum, ?_⟩
        simp only [avx2Measure, avx2Rank]
        omega
  | loop64 =>
    rw [asmAvx2Checksum_loop64]
    by_cases hlen : s.gpr .rdx < 64
    · rw [runBlock_guard_below cpu s hlen]
      exact ⟨h, by simp [avx2Measure, avx2Rank]⟩
    · rw [runBlock_guard_enter cpu s hlen]
      obtain ⟨u, hu, hsum, hrdx⟩ := dualBlock_next cpu m a n 4 (k := 64) rfl (by norm_num)
        (s := s.setFlags false (s.gpr .rdx == 64)) h rfl hlen ([] : List (Instr Avx2ChecksumLabel))
      have hrdx' : (u.gpr .rdx).toNat + 64 = (s.gpr .rdx).toNat := hrdx
      rw [hu]
      exact ⟨.loop8, rfl, hsum, by simp only [avx2Measure, avx2Rank]; omega⟩
  | loop8 =>
    refine loop8_lands cpu h (by simp) (by simp) (fun u hsum hrdx => ⟨hsum, ?_⟩)
      (fun u hsum hrdx => ⟨hsum, ?_⟩)
    · simp [avx2Measure, avx2Rank, hrdx]
    · simp only [avx2Measure, avx2Rank]
      omega
  | loop2 =>
    refine loop2_lands cpu h (by simp) (by simp) (fun u hsum hrdx hlt => ⟨⟨hsum, hlt⟩, ?_⟩)
      (fun u hsum hrdx => ⟨hsum, ?_⟩)
    · simp [avx2Measure, avx2Rank, hrdx]
    · simp only [avx2Measure, avx2Rank]
      omega
  | loop1 =>
    refine loop1_lands cpu h.1 h.2 (by simp) (by simp)
      (show _ = some Avx2ChecksumLabel.foldAccumulators from rfl) ?_
    rintro l u (rfl | rfl) hsum hrdx
    · exact ⟨⟨h.1.1, hsum⟩, by simp [avx2Measure, avx2Rank, hrdx]⟩
    · exact ⟨⟨h.1.1, hsum⟩, by simp [avx2Measure, avx2Rank, hrdx]⟩
  | foldAccumulators => exact avx2Fold_lands cpu m a n _ s h
  | retZero =>
    have hz : checksumValue m a n = 0 := if_pos h
    simp [asmAvx2Checksum, runBlock, exec, State.src, State.setReg32, logic, Outcome.Lands, Answered, hz]

/-- The dual-accumulator routine answers every buffer with its checksum value. -/
theorem asmAvx2Checksum_returns {s : State} (hm : s.mem = m) (ha : s.gpr .rcx = a) (hn : s.gpr .rdx = n) :
    ∃ t, asmAvx2Checksum.run cpu (8 * n.toNat + 8) .entry s = some t ∧ Answered m a n t := by
  refine asmAvx2Checksum.run_of_table cpu (avx2Block_lands cpu m a n) _ _ s ⟨hm, ha, hn⟩ ?_
  simp only [avx2Measure, avx2Rank, hn]
  omega

end Avx2

section Sse2
variable (m a n)

def sse2Table : Sse2ChecksumLabel → State → Prop
  | .entry, s => s.mem = m ∧ s.gpr .rcx = a ∧ s.gpr .rdx = n
  | .loopSse2x32, s | .loopSse2x8, s | .loopSse2x2, s => Summing m a n {.r8} s
  | .loopSse2x1, s => Summing m a n {.r8} s ∧ (s.gpr .rdx).toNat < 2
  | .foldSse2, s => ¬ (a = 0 ∨ n = 0) ∧ OnesEq 16 (total {.r8} s) (wordSum m a n.toNat)
  | .retSse2Zero, _ => a = 0 ∨ n = 0

def sse2Rank : Sse2ChecksumLabel → ℕ
  | .entry => 6 | .loopSse2x32 => 5 | .loopSse2x8 => 4 | .loopSse2x2 => 3 | .loopSse2x1 => 2
  | .foldSse2 => 1 | .retSse2Zero => 0

def sse2Measure (l : Sse2ChecksumLabel) (s : State) : ℕ := 8 * (s.gpr .rdx).toNat + sse2Rank l

theorem asmSse2Checksum_loopSse2x32 : asmSse2Checksum.code .loopSse2x32 =
    .cmp .rdx (.imm 32) :: .jcc .jb .loopSse2x8 :: ((adcChain .rcx (singleEntries 4) ++
      [.adc .r8 (.imm 0)]) ++ (advance 32 ++ [.jcc .jnz .loopSse2x32])) := rfl

theorem sse2Entry_lands (s : State) (h : sse2Table m a n .entry s) :
    (runBlock cpu s (asmSse2Checksum.code .entry)).Lands
      (fun l u => sse2Table m a n l u ∧ sse2Measure l u < sse2Measure .entry s) Q
      (some .loopSse2x32) := by
  obtain ⟨hm, ha, hn⟩ := h
  by_cases hnull : a = 0#64
  · simp [asmSse2Checksum, runBlock, exec, State.condition, State.src, State.setReg32, logic,
      Outcome.Lands, ha, hnull, sse2Table, sse2Measure, sse2Rank]
  by_cases hempty : n = 0#64
  · simp [asmSse2Checksum, runBlock, exec, State.condition, State.src, State.setReg32, logic,
      Outcome.Lands, ha, hnull, hn, hempty, sse2Table, sse2Measure, sse2Rank]
  · simp [asmSse2Checksum, runBlock, exec, State.condition, State.src, State.setReg32, logic,
      Outcome.Lands, ha, hnull, hn, hempty, sse2Table, sse2Measure, sse2Rank, Summing, Remaining,
      total, hm, OnesEq.refl]

/-- A wide block of one accumulator, up to the jump that may close its loop. -/
theorem singleBlock_next {s : State} (j : ℕ) {k : Word} (hk : k = BitVec.ofNat 64 (8 * j))
    (hj : 8 * j < 2 ^ 64) (h : Summing m a n {.r8} s) (hcf : s.cf = false)
    (hlen : ¬ s.gpr .rdx < k) (rest : List (Instr L)) :
    ∃ u, runBlock cpu s ((adcChain .rcx (singleEntries j) ++ [.adc .r8 (.imm 0)]) ++
        (advance k ++ rest)) = runBlock cpu u rest ∧
      Summing m a n {.r8} u ∧ (u.gpr .rdx).toNat + 8 * j = (s.gpr .rdx).toNat := by
  subst hk
  obtain ⟨t, ht, hstep⟩ := singleChain_next (L := L) cpu s j hcf
  obtain ⟨u, hu, hmem, hptr, hrdx, _, hgpr⟩ := advance_next (L := L) cpu t (BitVec.ofNat 64 (8 * j))
  refine ⟨u, ?_, h.wide hstep (by simp) hmem hptr hrdx hgpr hj hlen⟩
  rw [runBlock_append cpu s ht, runBlock_append cpu t hu]

theorem sse2Block_lands (l : Sse2ChecksumLabel) (s : State) (h : sse2Table m a n l s) :
    (runBlock cpu s (asmSse2Checksum.code l)).Lands
      (fun l' u => sse2Table m a n l' u ∧ sse2Measure l' u < sse2Measure l s)
      (Answered m a n) (asmSse2Checksum.fall l) := by
  cases l with
  | entry => exact sse2Entry_lands cpu m a n s h
  | loopSse2x32 =>
    rw [asmSse2Checksum_loopSse2x32]
    by_cases hlen : s.gpr .rdx < 32
    · rw [runBlock_guard_below cpu s hlen]
      exact ⟨h, by simp [sse2Measure, sse2Rank]⟩
    · rw [runBlock_guard_enter cpu s hlen]
      obtain ⟨u, hu, hsum, hrdx⟩ := singleBlock_next cpu m a n 4 (k := 32) rfl (by norm_num)
        (s := s.setFlags false (s.gpr .rdx == 32)) h rfl hlen ([.jcc .jnz .loopSse2x32] : List (Instr Sse2ChecksumLabel))
      have hrdx' : (u.gpr .rdx).toNat + 32 = (s.gpr .rdx).toNat := hrdx
      rw [hu]
      apply lands_jcc (show _ = some Sse2ChecksumLabel.loopSse2x8 from rfl)
      · refine ⟨hsum, ?_⟩
        simp only [sse2Measure, sse2Rank]
        omega
      · refine ⟨hsum, ?_⟩
        simp only [sse2Measure, sse2Rank]
        omega
  | loopSse2x8 =>
    refine loop8_lands cpu h (by simp) (by simp) (fun u hsum hrdx => ⟨hsum, ?_⟩)
      (fun u hsum hrdx => ⟨hsum, ?_⟩)
    · simp [sse2Measure, sse2Rank, hrdx]
    · simp only [sse2Measure, sse2Rank]
      omega
  | loopSse2x2 =>
    refine loop2_lands cpu h (by simp) (by simp) (fun u hsum hrdx hlt => ⟨⟨hsum, hlt⟩, ?_⟩)
      (fun u hsum hrdx => ⟨hsum, ?_⟩)
    · simp [sse2Measure, sse2Rank, hrdx]
    · simp only [sse2Measure, sse2Rank]
      omega
  | loopSse2x1 =>
    refine loop1_lands cpu h.1 h.2 (by simp) (by simp)
      (show _ = some Sse2ChecksumLabel.foldSse2 from rfl) ?_
    rintro l u (rfl | rfl) hsum hrdx
    · exact ⟨⟨h.1.1, hsum⟩, by simp [sse2Measure, sse2Rank, hrdx]⟩
    · exact ⟨⟨h.1.1, hsum⟩, by simp [sse2Measure, sse2Rank, hrdx]⟩
  | foldSse2 =>
    obtain ⟨u, hu, hrax⟩ := foldBlock_ret (L := Sse2ChecksumLabel) cpu s
    have hcode : asmSse2Checksum.code .foldSse2 = foldBlock := rfl
    rw [hcode, hu]
    show u.gpr .rax = _
    rw [hrax, fold_eq_onesFold (by simpa [total] using h.2), checksumValue, if_neg h.1]
  | retSse2Zero =>
    have hz : checksumValue m a n = 0 := if_pos h
    simp [asmSse2Checksum, runBlock, exec, State.src, State.setReg32, logic, Outcome.Lands, Answered, hz]

/-- The single-accumulator routine answers every buffer with its checksum value. -/
theorem asmSse2Checksum_returns {s : State} (hm : s.mem = m) (ha : s.gpr .rcx = a) (hn : s.gpr .rdx = n) :
    ∃ t, asmSse2Checksum.run cpu (8 * n.toNat + 8) .entry s = some t ∧ Answered m a n t := by
  refine asmSse2Checksum.run_of_table cpu (sse2Block_lands cpu m a n) _ _ s ⟨hm, ha, hn⟩ ?_
  simp only [sse2Measure, sse2Rank, hn]
  omega

end Sse2

end Disping.Assembly
