import Mathlib.Data.BitVec
import Disping.Assembly.ChecksumAgreement

/-! # The checksum routine against the Internet checksum

The Internet checksum completes an odd trailing byte with a zero byte after it. A little-endian
machine reads that word as the byte itself, and the routine shifts the byte into the upper half.
-/
namespace Disping.Assembly
open Machine Arithmetic

/-- The 16-bit words of a buffer, as a little-endian machine reads them. -/
def rfcWords : List (BitVec 8) → List (BitVec 16)
  | [] => []
  | [b] => [0#8 ++ b]
  | lo :: hi :: rest => (hi ++ lo) :: rfcWords rest

/-- The complement of the end-around-carry sum of the words. -/
def rfcChecksum (buffer : List (BitVec 8)) : BitVec 16 := ~~~(rfcWords buffer).foldl endAround 0

def rfcSum (buffer : List (BitVec 8)) : ℕ := ((rfcWords buffer).map BitVec.toNat).sum

theorem foldl_endAround_onesEq (ws : List (BitVec 16)) (acc : BitVec 16) :
    OnesEq 16 (ws.foldl endAround acc).toNat (acc.toNat + (ws.map BitVec.toNat).sum) := by
  induction ws generalizing acc with
  | nil => simpa using OnesEq.refl 16 acc.toNat
  | cons w ws ih =>
    have hfirst := (endAround_onesEq acc w).add_right (ws.map BitVec.toNat).sum
    rw [List.foldl_cons, List.map_cons, List.sum_cons, ← Nat.add_assoc]
    exact (ih (endAround acc w)).trans hfirst

theorem rfcChecksum_eq (buffer : List (BitVec 8)) :
    rfcChecksum buffer = ~~~BitVec.ofNat 16 (onesFold 16 (rfcSum buffer)) := by
  have hsum := foldl_endAround_onesEq (rfcWords buffer) 0
  rw [show (0 : BitVec 16).toNat = 0 from rfl, Nat.zero_add] at hsum
  rw [rfcChecksum, rfcSum, ← eq_onesFold (by decide) (BitVec.isLt _) hsum, BitVec.ofNat_toNat,
    BitVec.setWidth_eq]

theorem toNat_append_bytes (hi lo : BitVec 8) : (hi ++ lo).toNat = lo.toNat + 256 * hi.toNat := by
  have hlo := lo.isLt
  rw [BitVec.toNat_append, Nat.shiftLeft_eq, Nat.mul_comm, ← Nat.two_pow_add_eq_or_of_lt hlo]
  omega

theorem rfcSum_nil : rfcSum [] = 0 := rfl

theorem rfcSum_singleton (b : BitVec 8) : rfcSum [b] = b.toNat := by
  simp only [rfcSum, rfcWords, List.map_cons, List.map_nil, List.sum_cons, List.sum_nil,
    toNat_append_bytes]
  rfl

theorem rfcSum_cons_cons (lo hi : BitVec 8) (rest : List (BitVec 8)) :
    rfcSum (lo :: hi :: rest) = lo.toNat + 256 * hi.toNat + rfcSum rest := by
  simp only [rfcSum, rfcWords, List.map_cons, List.sum_cons, toNat_append_bytes]

/-- The byte that an odd length leaves over. -/
def trailing (m : Memory) (a : Word) (n : ℕ) : BitVec 8 :=
  if n % 2 = 0 then 0 else m (a + BitVec.ofNat 64 (n - 1))

/-- The two sums differ in the place of the trailing byte only. -/
theorem wordSum_eq_rfcSum (m : Memory) (a : Word) (n : ℕ) :
    wordSum m a n = rfcSum (readBytes m a n) + 255 * (trailing m a n).toNat := by
  induction n using Nat.twoStepInduction generalizing a with
  | zero => rfl
  | one =>
    have htrailing : trailing m a 1 = m a := by simp [trailing]
    rw [readBytes_succ, readBytes, List.range_zero, List.map_nil, rfcSum_singleton, wordSum,
      htrailing]
    omega
  | more n ih _ =>
    have hload : loadNat m a 2 = (m a).toNat + 256 * (m (a + 1)).toNat := by simp [loadNat]
    have hnext : a + 1 + 1 = a + 2 := by
      rw [BitVec.add_assoc]
      rfl
    have htrailing : trailing m a (n + 2) = trailing m (a + 2) n := by
      rcases n with _ | n
      · rfl
      · have hshift : a + 2 + BitVec.ofNat 64 n = a + BitVec.ofNat 64 (n + 2) := by
          rw [BitVec.ofNat_add, BitVec.add_assoc, BitVec.add_comm (BitVec.ofNat 64 n)]
          rfl
        simp only [trailing, Nat.add_sub_cancel, Nat.add_mod_right, hshift]
        rfl
    rw [wordSum, ih, readBytes_succ, readBytes_succ, hnext, rfcSum_cons_cons, hload, htrailing]
    omega

/-- A trailing byte other than zero changes the sum modulo `2^16 - 1`. -/
theorem onesEq_trailing_iff (sum : ℕ) (b : BitVec 8) :
    OnesEq 16 (sum + 255 * b.toNat) sum ↔ b = 0 := by
  have hb := b.isLt
  constructor
  · rintro ⟨hmod, -⟩
    have hzero : 255 * b.toNat ≡ 0 [MOD 2 ^ 16 - 1] := Nat.ModEq.add_left_cancel' sum hmod
    have hsmall := hzero.eq_of_lt_of_lt (by omega) (by omega)
    apply BitVec.eq_of_toNat_eq
    calc b.toNat = 0 := by omega
      _ = (0 : BitVec 8).toNat := rfl
  · rintro rfl
    exact OnesEq.refl 16 sum

theorem complement_onesFold_inj {x y : ℕ} :
    ~~~BitVec.ofNat 16 (onesFold 16 x) = ~~~BitVec.ofNat 16 (onesFold 16 y) ↔ OnesEq 16 x y := by
  have hpos : 0 < 16 := by decide
  have hx := onesFold_lt hpos x
  have hy := onesFold_lt hpos y
  constructor
  · intro h
    have hval := congrArg BitVec.toNat (BitVec.not_inj.mp h)
    rw [BitVec.toNat_ofNat, BitVec.toNat_ofNat, Nat.mod_eq_of_lt hx, Nat.mod_eq_of_lt hy] at hval
    exact (onesFold_onesEq 16 x).symm.trans (hval ▸ onesFold_onesEq 16 y)
  · intro h
    rw [onesFold_congr hpos h]

theorem checksumValue_eq_rfc_iff {m : Memory} {a n : Word} (ha : a ≠ 0) (hn : n ≠ 0) :
    checksumValue m a n = rfcChecksum (readBytes m a n.toNat) ↔ trailing m a n.toNat = 0 := by
  rw [checksumValue, if_neg (not_or.mpr ⟨ha, hn⟩), rfcChecksum_eq, complement_onesFold_inj,
    wordSum_eq_rfcSum, onesEq_trailing_iff]

theorem trailing_eq_zero_iff (m : Memory) (a n : Word) (hn : n ≠ 0) :
    trailing m a n.toNat = 0 ↔ n.toNat % 2 = 0 ∨ m (a + (n - 1)) = 0 := by
  have hlast : BitVec.ofNat 64 (n.toNat - 1) = n - 1 := by
    have hpos : n.toNat ≠ 0 := fun h => hn (BitVec.eq_of_toNat_eq h)
    have hlt := n.isLt
    apply BitVec.eq_of_toNat_eq
    have hone : (1 : Word).toNat = 1 := rfl
    rw [BitVec.toNat_ofNat, BitVec.toNat_sub]
    omega
  rw [trailing, hlast]
  by_cases hodd : n.toNat % 2 = 0 <;> simp [hodd]

theorem returns_rfc_iff (cpu : Cpu) (s : State) (ha : s.gpr .rcx ≠ 0) (hn : s.gpr .rdx ≠ 0) :
    (∃ t, asmAvx2Checksum.Returns cpu s t ∧ t.gpr .rax =
        (rfcChecksum (readBytes s.mem (s.gpr .rcx) (s.gpr .rdx).toNat)).setWidth 64) ↔
      trailing s.mem (s.gpr .rcx) (s.gpr .rdx).toNat = 0 := by
  obtain ⟨t, ht, hanswer⟩ := asmAvx2Checksum_returns cpu s.mem (s.gpr .rcx) (s.gpr .rdx) rfl rfl rfl
  rw [← checksumValue_eq_rfc_iff ha hn]
  constructor
  · rintro ⟨u, hu, hrfc⟩
    obtain rfl := asmAvx2Checksum.returns_unique cpu ⟨_, ht⟩ hu
    have hwide := hanswer.symm.trans hrfc
    have hlow := congrArg (BitVec.setWidth 16) hwide
    simpa using hlow
  · intro h
    exact ⟨t, ⟨_, ht⟩, by rw [← h]; exact hanswer⟩

/-- When the routine returns the Internet checksum of its buffer. -/
theorem asmFastChecksumX64_rfc_iff (cpu : Cpu) (s : State) (ha : s.gpr .rcx ≠ 0)
    (hn : s.gpr .rdx ≠ 0) :
    (∃ t, asmAvx2Checksum.Returns cpu s t ∧ t.gpr .rax =
        (rfcChecksum (readBytes s.mem (s.gpr .rcx) (s.gpr .rdx).toNat)).setWidth 64) ↔
      (s.gpr .rdx).toNat % 2 = 0 ∨ s.mem (s.gpr .rcx + (s.gpr .rdx - 1)) = 0 := by
  rw [returns_rfc_iff cpu s ha hn, trailing_eq_zero_iff _ _ _ hn]

/-- The bytes 64 to 163: blocks of the loop and a rest. -/
theorem asmFastChecksumX64_rfc_counting : ∃ t, asmAvx2Checksum.Returns default
    (((default : State).setMem counting).call2 64 100) t ∧
      t.gpr .rax = (rfcChecksum (readBytes counting 64 100)).setWidth 64 :=
  (asmFastChecksumX64_rfc_iff default (((default : State).setMem counting).call2 64 100) (by decide)
    (by decide)).mpr (.inl (by decide))

/-- The byte 1 alone. -/
def oneByte : State := ((default : State).setMem fun _ => 1).call2 64 1

theorem not_asmFastChecksumX64_rfc_oneByte :
    ¬ ∀ (cpu : Cpu) (s : State), s.gpr .rcx ≠ 0 → s.gpr .rdx ≠ 0 →
      ∃ t, asmAvx2Checksum.Returns cpu s t ∧ t.gpr .rax =
        (rfcChecksum (readBytes s.mem (s.gpr .rcx) (s.gpr .rdx).toNat)).setWidth 64 := by
  intro h
  have hzero := (returns_rfc_iff default oneByte (by decide) (by decide)).mp
    (h default oneByte (by decide) (by decide))
  exact absurd hzero (by decide)

end Disping.Assembly
