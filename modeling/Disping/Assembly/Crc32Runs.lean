import Disping.Assembly.NumericListing
import Disping.Machine.CrcInstruction
import Disping.Machine.Memory
import Disping.Machine.Rules

/-! # The CRC routine against the checksum bit by bit

An eight-byte operand is taken as its eight bytes are, one after the other, so what is left of the
buffer and the accumulator determine the answer at every turn of both loops.
-/
namespace Disping.Assembly
open Machine Arithmetic

/-- The bits of a buffer, each byte from its lowest bit on. -/
def crcBits (buffer : List (BitVec 8)) : List Bool := buffer.flatMap lsbFirst

theorem crcBits_append (buffer rest : List (BitVec 8)) :
    crcBits (buffer ++ rest) = crcBits buffer ++ crcBits rest := List.flatMap_append

/-- CRC-32C: the polynomial 0x82F63B78 reflected, all ones at first, complemented at the end. -/
def crc32c (buffer : List (BitVec 8)) : BitVec 32 :=
  ~~~(crcBits buffer).foldl crcBit (BitVec.allOnes 32)

theorem lsbFirst_load_succ (m : Memory) (a : Word) (n : ℕ) :
    lsbFirst (load (8 * (n + 1)) m a) = lsbFirst (m a) ++ lsbFirst (load (8 * n) m (a + 1)) := by
  apply List.ext_getElem
  · simp [lsbFirst]
  · intro i _ _
    have hvalue : loadNat m a (n + 1) = 2 ^ 8 * loadNat m (a + 1) n + (m a).toNat := by
      rw [loadNat]
      omega
    have hbit : (load (8 * (n + 1)) m a).getLsbD i =
        if i < 8 then (m a).getLsbD i else (load (8 * n) m (a + 1)).getLsbD (i - 8) := by
      rw [BitVec.getLsbD, toNat_load, hvalue, Nat.testBit_two_pow_mul_add _ (m a).isLt,
        BitVec.getLsbD, BitVec.getLsbD, toNat_load]
    rw [List.getElem_append]
    simp only [lsbFirst, List.getElem_ofFn, List.length_ofFn, hbit]
    split <;> rfl

/-- A little-endian operand holds the bits of its bytes in their order. -/
theorem lsbFirst_load (m : Memory) (a : Word) (n : ℕ) :
    lsbFirst (load (8 * n) m a) = crcBits (readBytes m a n) := by
  induction n generalizing a with
  | zero => rfl
  | succ n ih =>
    rw [lsbFirst_load_succ, readBytes_succ, ih]
    rfl

variable (cpu : Cpu) (m : Memory) (a n : Word) {Q : State → Prop}

/-- What is left of the buffer, from the state's pointer on. -/
def unread (m : Memory) (s : State) : List (BitVec 8) :=
  readBytes m (s.gpr .rcx) (s.gpr .rdx).toNat

/-- Going on from the state gives the value of the whole buffer. -/
structure Crcing (s : State) : Prop where
  mem : s.mem = m
  goal : (crcBits (unread m s)).foldl crcBit ((s.gpr .rax).setWidth 32) =
    (crcBits (readBytes m a n.toNat)).foldl crcBit (BitVec.allOnes 32)

/-- The bytes that the routine looks at; it takes a null pointer for an empty buffer. -/
def crcBuffer : List (BitVec 8) := if a = 0 then [] else readBytes m a n.toNat

def crcTable : Crc32Label → State → Prop
  | .entry, s => s.mem = m ∧ s.gpr .rcx = a ∧ s.gpr .rdx = n
  | .crcLoop8, s | .crcLoop1, s => a ≠ 0 ∧ Crcing m a n s
  | .crcRet, s => ~~~(s.gpr .rax).setWidth 32 = crc32c (crcBuffer m a n)

def crcRank : Crc32Label → ℕ
  | .entry => 3 | .crcLoop8 => 2 | .crcLoop1 => 1 | .crcRet => 0

def crcMeasure (l : Crc32Label) (s : State) : ℕ := 8 * (s.gpr .rdx).toNat + crcRank l

/-- A turn of a loop with an operand of `k` bytes. -/
structure CrcStep (k : ℕ) (s u : State) : Prop where
  mem : u.mem = s.mem
  ptr : u.gpr .rcx = s.gpr .rcx + BitVec.ofNat 64 k
  len : u.gpr .rdx = s.gpr .rdx - BitVec.ofNat 64 k
  acc : (u.gpr .rax).setWidth 32 =
    crc32 ((s.gpr .rax).setWidth 32) (load (8 * k) s.mem (s.gpr .rcx))

theorem CrcStep.length {k : ℕ} {s u : State} (h : CrcStep k s u) (hk : k < 2 ^ 64)
    (hlen : k ≤ (s.gpr .rdx).toNat) : (u.gpr .rdx).toNat + k = (s.gpr .rdx).toNat := by
  have hlt := (s.gpr .rdx).isLt
  rw [h.len, BitVec.toNat_sub, BitVec.toNat_ofNat]
  omega

/-- The operand's bytes come off the rest of the buffer. -/
theorem Crcing.absorb {k : ℕ} {s u : State} (h : Crcing m a n s) (hstep : CrcStep k s u)
    (hk : k < 2 ^ 64) (hlen : k ≤ (s.gpr .rdx).toNat) : Crcing m a n u := by
  have hsplit : unread m s = readBytes m (s.gpr .rcx) k ++ unread m u := by
    rw [unread, unread, hstep.ptr, ← readBytes_add, ← hstep.length hk hlen, Nat.add_comm]
  refine ⟨hstep.mem.trans h.mem, ?_⟩
  rw [← h.goal, hsplit, crcBits_append, List.foldl_append, hstep.acc, crc32_eq_foldl,
    lsbFirst_load, h.mem]

theorem crcLoop8_step (s : State) : ∃ u, runBlock cpu s [.crc32q .rax (.mem (.off .rcx 0)),
    .add .rcx (.imm 8), .sub .rdx (.imm 8), .jmp Crc32Label.crcLoop8] = .jump .crcLoop8 u ∧
      CrcStep 8 s u := by
  refine ⟨_, rfl, ?_⟩
  constructor <;> simp [State.setReg32, State.src, addition]

theorem crcLoop1_step (s : State) : ∃ u, runBlock cpu s [.crc32b .rax (.mem (.off .rcx 0)),
    .inc .rcx, .dec .rdx, .jmp Crc32Label.crcLoop1] = .jump .crcLoop1 u ∧ CrcStep 1 s u := by
  refine ⟨_, rfl, ?_⟩
  constructor <;> simp [State.setReg32, State.src]

theorem Crcing.setFlags {s : State} (h : Crcing m a n s) (c z : Bool) :
    Crcing m a n (s.setFlags c z) := ⟨h.mem, h.goal⟩

theorem crcEntry_lands {s : State} (h : crcTable m a n .entry s) :
    (runBlock cpu s (asmCrc32Fast.code .entry)).Lands
      (fun l u => crcTable m a n l u ∧ crcMeasure l u < crcMeasure .entry s) Q
      (some .crcLoop8) := by
  obtain ⟨hm, ha, hn⟩ := h
  by_cases hnull : a = 0#64
  · simp [asmCrc32Fast, runBlock, exec, State.condition, State.src, State.setReg32,
      Outcome.Lands, ha, hnull, crcTable, crcMeasure, crcRank, crcBuffer, crc32c, crcBits]
  by_cases hempty : n = 0#64
  · simp [asmCrc32Fast, runBlock, exec, State.condition, State.src, State.setReg32,
      Outcome.Lands, ha, hnull, hn, hempty, crcTable, crcMeasure, crcRank, crcBuffer, readBytes,
      crc32c, crcBits]
  · simp [asmCrc32Fast, runBlock, exec, State.condition, State.src, State.setReg32,
      Outcome.Lands, ha, hnull, hn, hempty, crcTable, crcMeasure, crcRank]
    refine ⟨hm, ?_⟩
    simp only [unread, State.gpr_setFlags, State.gpr_setReg, reduceCtorEq, if_false, if_true, ha, hn]
    rfl

theorem crcBlock_lands (l : Crc32Label) (s : State) (h : crcTable m a n l s) :
    (runBlock cpu s (asmCrc32Fast.code l)).Lands
      (fun l' u => crcTable m a n l' u ∧ crcMeasure l' u < crcMeasure l s)
      (fun t => t.intResult = crc32c (crcBuffer m a n)) (asmCrc32Fast.fall l) := by
  cases l with
  | entry => exact crcEntry_lands cpu m a n h
  | crcLoop8 =>
    obtain ⟨ha, hcrc⟩ := h
    rw [show asmCrc32Fast.code .crcLoop8 = .cmp .rdx (.imm 8) :: .jcc .jb .crcLoop1 ::
      [.crc32q .rax (.mem (.off .rcx 0)), .add .rcx (.imm 8), .sub .rdx (.imm 8), .jmp .crcLoop8]
      from rfl]
    by_cases hlen : s.gpr .rdx < 8
    · rw [runBlock_guard_below cpu s hlen]
      exact ⟨⟨ha, hcrc.setFlags m a n _ _⟩, by simp [crcMeasure, crcRank]⟩
    · have hle : 8 ≤ (s.gpr .rdx).toNat := BitVec.le_def.mp (BitVec.not_lt.mp hlen)
      rw [runBlock_guard_enter cpu s hlen]
      obtain ⟨u, hu, hstep⟩ := crcLoop8_step cpu (s.setFlags false (s.gpr .rdx == 8))
      have hrest : (u.gpr .rdx).toNat + 8 = (s.gpr .rdx).toNat := hstep.length (by norm_num) hle
      rw [hu]
      refine ⟨⟨ha, (hcrc.setFlags m a n _ _).absorb m a n hstep (by norm_num) hle⟩, ?_⟩
      simp only [crcMeasure, crcRank]
      omega
  | crcLoop1 =>
    obtain ⟨ha, hcrc⟩ := h
    rw [show asmCrc32Fast.code .crcLoop1 = .test .rdx (.reg .rdx) :: .jcc .jz .crcRet ::
      [.crc32b .rax (.mem (.off .rcx 0)), .inc .rcx, .dec .rdx, .jmp .crcLoop1] from rfl]
    by_cases hempty : s.gpr .rdx = 0#64
    · rw [runBlock_test_zero cpu s hempty]
      have hgoal := hcrc.goal
      rw [unread, hempty] at hgoal
      refine ⟨?_, by simp [crcMeasure, crcRank]⟩
      rw [crcTable, crcBuffer, if_neg ha, crc32c, ← hgoal]
      rfl
    · have hle : 1 ≤ (s.gpr .rdx).toNat :=
        Nat.one_le_iff_ne_zero.mpr fun hzero => hempty (BitVec.eq_of_toNat_eq hzero)
      rw [runBlock_test_nonzero cpu s hempty]
      obtain ⟨u, hu, hstep⟩ := crcLoop1_step cpu (s.setFlags false false)
      have hrest : (u.gpr .rdx).toNat + 1 = (s.gpr .rdx).toNat := hstep.length (by norm_num) hle
      rw [hu]
      refine ⟨⟨ha, (hcrc.setFlags m a n _ _).absorb m a n hstep (by norm_num) hle⟩, ?_⟩
      simp only [crcMeasure, crcRank]
      omega
  | crcRet =>
    have hret : (~~~(s.gpr .rax).setWidth 32 : BitVec 32) = crc32c (crcBuffer m a n) := h
    simpa [asmCrc32Fast, runBlock, exec, Outcome.Lands, State.intResult, State.setReg32] using hret

theorem asmCrc32Fast_run (cpu : Cpu) (s : State) : ∃ t, asmCrc32Fast.Returns cpu s t ∧
    t.intResult = crc32c (crcBuffer s.mem (s.gpr .rcx) (s.gpr .rdx)) := by
  obtain ⟨t, ht, hcrc⟩ := asmCrc32Fast.run_of_table cpu
    (crcBlock_lands cpu s.mem (s.gpr .rcx) (s.gpr .rdx)) (8 * (s.gpr .rdx).toNat + 4) .entry s
    ⟨rfl, rfl, rfl⟩ (by simp [crcMeasure, crcRank])
  exact ⟨t, ⟨_, ht⟩, hcrc⟩

/-- The routine returns the CRC-32C of its buffer. -/
theorem asmCrc32Fast_returns (s : State) :
    ∃ t, asmCrc32Fast.Returns cpu s t ∧
      t.intResult = crc32c (crcBuffer s.mem (s.gpr .rcx) (s.gpr .rdx)) := asmCrc32Fast_run cpu s

/-- The check value of the digits 1 to 9. -/
example : crc32c [0x31, 0x32, 0x33, 0x34, 0x35, 0x36, 0x37, 0x38, 0x39] = 0xE3069283 := by
  decide +kernel

end Disping.Assembly
