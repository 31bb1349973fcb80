import Disping.Arithmetic.ShiftRegister
import Disping.Assembly.Crc32Runs

/-! # What the CRC tells apart

Two buffers of one length that differ within 32 consecutive bits get different values, and a buffer
that ends with the value of the bytes before is known by one constant.
-/
namespace Disping.Assembly
open Machine Arithmetic

theorem crcBit_eq_shiftStep : crcBit = shiftStep 0x82F63B78#32 := rfl

theorem lsbFirst_injective : Function.Injective (lsbFirst : BitVec 8 → List Bool) := by
  intro x y h
  rw [← ofBits_lsbFirst x, h, ofBits_lsbFirst]

theorem length_crcBits (buffer : List (BitVec 8)) : (crcBits buffer).length = 8 * buffer.length := by
  induction buffer with
  | nil => rfl
  | cons x buffer ih =>
    have hcons : crcBits (x :: buffer) = lsbFirst x ++ crcBits buffer := rfl
    rw [hcons, List.length_append, ih, List.length_cons]
    simp [lsbFirst]
    omega

theorem crcBits_injective : Function.Injective crcBits := by
  intro xs
  induction xs with
  | nil =>
    intro ys h
    have hlen := congrArg List.length h
    rw [length_crcBits, length_crcBits] at hlen
    exact (List.eq_nil_of_length_eq_zero (by simpa using hlen.symm)).symm
  | cons x xs ih =>
    intro ys h
    cases ys with
    | nil =>
      have hlen := congrArg List.length h
      rw [length_crcBits, length_crcBits] at hlen
      simp at hlen
    | cons y ys =>
      have happend : lsbFirst x ++ crcBits xs = lsbFirst y ++ crcBits ys := h
      obtain ⟨hhead, htail⟩ := List.append_inj happend (by simp [lsbFirst])
      rw [lsbFirst_injective hhead, ih htail]

/-- Two lists of one length that agree outside of a window, cut at its ends. -/
theorem exists_window {α : Type*} {l l' : List α} {k n : ℕ} (hlen : l.length = l'.length)
    (h : ∀ i, l[i]? ≠ l'[i]? → k ≤ i ∧ i < k + n) :
    ∃ before xs ys after, l = before ++ xs ++ after ∧ l' = before ++ ys ++ after ∧
      xs.length = ys.length ∧ xs.length ≤ n := by
  have hbefore : l.take k = l'.take k := by
    apply List.ext_getElem?
    intro i
    rw [List.getElem?_take, List.getElem?_take]
    split
    · rename_i hi
      by_contra hne
      have hin := h i hne
      omega
    · rfl
  have hafter : l.drop (k + n) = l'.drop (k + n) := by
    apply List.ext_getElem?
    intro i
    rw [List.getElem?_drop, List.getElem?_drop]
    by_contra hne
    have hin := h (k + n + i) hne
    omega
  have hcut : ∀ m : List α, m = m.take k ++ (m.drop k).take n ++ m.drop (k + n) := by
    intro m
    rw [List.append_assoc, ← List.drop_drop, List.take_append_drop, List.take_append_drop]
  refine ⟨l.take k, (l.drop k).take n, (l'.drop k).take n, l.drop (k + n), hcut l, ?_, ?_, ?_⟩
  · rw [hbefore, hafter]
    exact hcut l'
  · simp [hlen]
  · simp

/-- A burst of 32 bits changes the value. -/
theorem crc32c_eq_iff_of_burst {xs ys : List (BitVec 8)} (hlen : xs.length = ys.length) {k : ℕ}
    (hburst : ∀ i, (crcBits xs)[i]? ≠ (crcBits ys)[i]? → k ≤ i ∧ i < k + 32) :
    crc32c xs = crc32c ys ↔ xs = ys := by
  constructor
  · intro h
    have hbits : (crcBits xs).length = (crcBits ys).length := by
      rw [length_crcBits, length_crcBits, hlen]
    obtain ⟨before, us, vs, after, hxs, hys, huv, hwindow⟩ := exists_window hbits hburst
    have hfold := BitVec.not_inj.mp h
    rw [hxs, hys, crcBit_eq_shiftStep] at hfold
    have hsame : us = vs := foldl_shiftStep_window _ (by decide) _ huv hwindow hfold
    exact crcBits_injective (by rw [hxs, hys, hsame])
  · exact congrArg crc32c

/-- The bytes a call of the routine looks at. -/
def crcInput (s : State) : List (BitVec 8) := crcBuffer s.mem (s.gpr .rcx) (s.gpr .rdx)

/-- Two inputs of one length that differ within 32 consecutive bits at most get the same value only
when they are the same. -/
theorem asmCrc32Fast_detects_burst (cpu : Cpu) (s s' : State)
    (hlen : (crcInput s).length = (crcInput s').length) (k : ℕ)
    (hburst : ∀ i, (crcBits (crcInput s))[i]? ≠ (crcBits (crcInput s'))[i]? → k ≤ i ∧ i < k + 32) :
    ∃ t t', asmCrc32Fast.Returns cpu s t ∧ asmCrc32Fast.Returns cpu s' t' ∧
      (t.intResult = t'.intResult ↔ crcInput s = crcInput s') := by
  obtain ⟨t, ht, hcrc⟩ := asmCrc32Fast_run cpu s
  obtain ⟨t', ht', hcrc'⟩ := asmCrc32Fast_run cpu s'
  refine ⟨t, t', ht, ht', ?_⟩
  rw [hcrc, hcrc']
  exact crc32c_eq_iff_of_burst hlen hburst

/-- A buffer of one byte. -/
def byteAt64 (x : BitVec 8) : State := ((default : State).setMem fun _ => x).call2 64 1

theorem asmCrc32Fast_detects_burst_byte : ∃ t t', asmCrc32Fast.Returns default (byteAt64 0x5A) t ∧
    asmCrc32Fast.Returns default (byteAt64 0xA5) t' ∧ t.intResult ≠ t'.intResult := by
  have hburst : ∀ i, (crcBits (crcInput (byteAt64 0x5A)))[i]? ≠ (crcBits (crcInput (byteAt64 0xA5)))[i]? →
      0 ≤ i ∧ i < 0 + 32 := by
    intro i hne
    by_contra hfar
    refine hne ?_
    rw [List.getElem?_eq_none, List.getElem?_eq_none]
    · change 8 ≤ i
      omega
    · change 8 ≤ i
      omega
  obtain ⟨t, t', ht, ht', hiff⟩ :=
    asmCrc32Fast_detects_burst default (byteAt64 0x5A) (byteAt64 0xA5) rfl 0 hburst
  refine ⟨t, t', ht, ht', fun hsame => ?_⟩
  exact absurd (hiff.mp hsame) (by decide)

/-- The value of a buffer that ends with the value of the bytes before. -/
def crcResidue : BitVec 32 := 0x48674BC7

theorem shiftOut_allOnes :
    ~~~shiftOut 0x82F63B78#32 (BitVec.allOnes 32) 32 = crcResidue := by decide +kernel

theorem crc32c_append_word {front : List (BitVec 8)} {last : BitVec 32} {buffer : List (BitVec 8)}
    (h : crcBits buffer = crcBits front ++ lsbFirst last) :
    crc32c buffer = crcResidue ↔ last = crc32c front := by
  let r := (crcBits front).foldl crcBit (BitVec.allOnes 32)
  have hvalue : crc32c buffer = ~~~shiftOut 0x82F63B78#32 (r ^^^ last) 32 := by
    have hlast := foldl_shiftStep_eq_shiftOut 0x82F63B78#32 (lsbFirst last) r (by simp [lsbFirst])
    rw [ofBits_lsbFirst] at hlast
    rw [crc32c, h, List.foldl_append, crcBit_eq_shiftStep]
    rw [show (crcBits front).foldl (shiftStep 0x82F63B78#32) (BitVec.allOnes 32) = r from rfl, hlast]
    simp [lsbFirst]
  have hones : r ^^^ last = BitVec.allOnes 32 ↔ last = ~~~r := by
    rw [← BitVec.xor_allOnes, BitVec.xor_comm r (BitVec.allOnes 32)]
    constructor
    · intro hsum
      rw [← hsum, BitVec.xor_comm r, BitVec.xor_assoc, BitVec.xor_self, BitVec.xor_zero]
    · intro hlast
      rw [hlast, BitVec.xor_comm (BitVec.allOnes 32), ← BitVec.xor_assoc, BitVec.xor_self,
        BitVec.zero_xor]
  rw [hvalue, ← shiftOut_allOnes, BitVec.not_inj, show crc32c front = ~~~r from rfl, ← hones]
  exact ⟨fun hout => foldl_shiftStep_injective _ (by decide) _ hout, fun hin => by rw [hin]⟩

/-- The receiver's check: a message with four bytes behind it gives the constant exactly when these
are its value. -/
theorem asmCrc32Fast_receiver_iff (cpu : Cpu) (s : State) (hbuffer : s.gpr .rcx ≠ 0)
    (hlen : 4 ≤ (s.gpr .rdx).toNat) :
    ∃ t, asmCrc32Fast.Returns cpu s t ∧ (t.intResult = crcResidue ↔
      load 32 s.mem (s.gpr .rcx + BitVec.ofNat 64 ((s.gpr .rdx).toNat - 4)) =
        crc32c (readBytes s.mem (s.gpr .rcx) ((s.gpr .rdx).toNat - 4))) := by
  obtain ⟨t, ht, hcrc⟩ := asmCrc32Fast_run cpu s
  refine ⟨t, ht, ?_⟩
  rw [hcrc, crcBuffer, if_neg hbuffer]
  apply crc32c_append_word
  have hsplit := readBytes_add s.mem (s.gpr .rcx) ((s.gpr .rdx).toNat - 4) 4
  rw [Nat.sub_add_cancel hlen] at hsplit
  rw [hsplit, crcBits_append]
  congr 1
  exact (lsbFirst_load _ _ 4).symm

/-- The digits 1 to 9 and their value. -/
def checkedDigits : State :=
  ((default : State).setMem fun x => [0x31, 0x32, 0x33, 0x34, 0x35, 0x36, 0x37, 0x38, 0x39, 0x83, 0x92,
    0x06, 0xE3].getD (x.toNat - 64) 0).call2 64 13

theorem asmCrc32Fast_receiver_digits : ∃ t,
    asmCrc32Fast.Returns default checkedDigits t ∧ t.intResult = crcResidue := by
  obtain ⟨t, ht, hiff⟩ := asmCrc32Fast_receiver_iff default checkedDigits (by decide) (by decide)
  exact ⟨t, ht, hiff.mpr (by decide +kernel)⟩

end Disping.Assembly
