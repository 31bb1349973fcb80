import Disping.Assembly.Rfc1071

/-! # The receiver's check of a checksum

A buffer of even length with its checksum appended, low byte first, has the checksum zero: the
value completes the sum of the words to a positive multiple of `2^16 - 1`.
-/
namespace Disping.Assembly
open Machine Arithmetic

def lowByte (v : BitVec 16) : BitVec 8 := v.setWidth 8

def highByte (v : BitVec 16) : BitVec 8 := (v >>> 8).setWidth 8

theorem toNat_bytes (v : BitVec 16) : (lowByte v).toNat + 256 * (highByte v).toNat = v.toNat := by
  have hv := v.isLt
  simp only [lowByte, highByte, BitVec.toNat_setWidth, BitVec.toNat_ushiftRight,
    Nat.shiftRight_eq_div_pow]
  omega

/-- Words after an even number of bytes stay words. -/
theorem rfcSum_append {bs : List (BitVec 8)} (heven : bs.length % 2 = 0) (cs : List (BitVec 8)) :
    rfcSum (bs ++ cs) = rfcSum bs + rfcSum cs := by
  induction bs using rfcWords.induct with
  | case1 => simp [rfcSum_nil]
  | case2 b => simp at heven
  | case3 lo hi rest ih =>
    have hrest : rest.length % 2 = 0 := by
      simp only [List.length_cons] at heven
      omega
    rw [List.cons_append, List.cons_append, rfcSum_cons_cons, rfcSum_cons_cons, ih hrest]
    omega

theorem rfcSum_pair (v : BitVec 16) : rfcSum [lowByte v, highByte v] = v.toNat := by
  rw [rfcSum_cons_cons, rfcSum_nil, Nat.add_zero, toNat_bytes]

theorem wordSum_even (m : Memory) (a : Word) {n : ℕ} (heven : n % 2 = 0) :
    wordSum m a n = rfcSum (readBytes m a n) := by
  rw [wordSum_eq_rfcSum, trailing, if_pos heven]
  rfl

/-- A sum with the complement of its fold is `2^k - 1` in ones-complement, never the other zero. -/
theorem onesFold_add_complement {k : ℕ} (hk : 0 < k) (n : ℕ) :
    onesFold k (n + (2 ^ k - 1 - onesFold k n)) = 2 ^ k - 1 := by
  have hlt := onesFold_lt hk n
  have hfull : OnesEq k (onesFold k n + (2 ^ k - 1 - onesFold k n)) (2 ^ k - 1) := by
    rw [Nat.add_sub_cancel' (by omega)]
    exact OnesEq.refl k _
  have hsum := ((onesFold_onesEq k n).symm.add_right (2 ^ k - 1 - onesFold k n)).trans hfull
  exact (eq_onesFold hk (by omega) hsum.symm).symm

theorem toNat_complement_onesFold (n : ℕ) :
    (~~~BitVec.ofNat 16 (onesFold 16 n)).toNat = 2 ^ 16 - 1 - onesFold 16 n := by
  rw [BitVec.toNat_not, BitVec.toNat_ofNat, Nat.mod_eq_of_lt (onesFold_lt (by decide) n)]

section Appended
variable {m m' : Memory} {a a' n : Word}

theorem wordSum_appended (heven : n.toNat % 2 = 0) {v : BitVec 16}
    (h : readBytes m' a' (n.toNat + 2) = readBytes m a n.toNat ++ [lowByte v, highByte v]) :
    wordSum m' a' (n.toNat + 2) = wordSum m a n.toNat + v.toNat := by
  rw [wordSum_even m' a' (by omega), wordSum_even m a heven, h, rfcSum_append (by simpa using heven),
    rfcSum_pair]

theorem checksumValue_appended (ha : a ≠ 0) (hn : n ≠ 0) (heven : n.toNat % 2 = 0)
    (h : readBytes m' a' (n.toNat + 2) = readBytes m a n.toNat ++
      [lowByte (checksumValue m a n), highByte (checksumValue m a n)]) :
    checksumValue m' a' (n + 2) = 0 := by
  unfold checksumValue
  split
  · rfl
  · rename_i hpresent
    have hlength : (n + 2).toNat = n.toNat + 2 := by
      have hlt := n.isLt
      have hadd : (n + 2).toNat = (n.toNat + 2) % 2 ^ 64 := BitVec.toNat_add n 2
      have hnonzero : (n + 2).toNat ≠ 0 := fun hzero =>
        not_or.mp hpresent |>.2 (BitVec.eq_of_toNat_eq hzero)
      omega
    have hvalue : (checksumValue m a n).toNat = 2 ^ 16 - 1 - onesFold 16 (wordSum m a n.toNat) := by
      rw [checksumValue, if_neg (not_or.mpr ⟨ha, hn⟩), toNat_complement_onesFold]
    rw [hlength, wordSum_appended heven h, hvalue, onesFold_add_complement (by decide)]
    rfl

end Appended

/-- The routine answers 0 for a buffer of even length that carries the routine's own answer. -/
theorem asmFastChecksumX64_verifies (cpu : Cpu) (s : State) (ha : s.gpr .rcx ≠ 0)
    (hn : s.gpr .rdx ≠ 0) (heven : (s.gpr .rdx).toNat % 2 = 0) :
    ∃ t, asmAvx2Checksum.Returns cpu s t ∧ ∀ s' : State, s'.gpr .rdx = s.gpr .rdx + 2 →
      readBytes s'.mem (s'.gpr .rcx) ((s.gpr .rdx).toNat + 2) =
        readBytes s.mem (s.gpr .rcx) (s.gpr .rdx).toNat ++
          [lowByte ((t.gpr .rax).setWidth 16), highByte ((t.gpr .rax).setWidth 16)] →
      ∃ t', asmAvx2Checksum.Returns cpu s' t' ∧ (t'.gpr .rax).setWidth 16 = 0#16 := by
  obtain ⟨t, ht, hanswer⟩ := asmAvx2Checksum_returns cpu s.mem (s.gpr .rcx) (s.gpr .rdx) rfl rfl rfl
  refine ⟨t, ⟨_, ht⟩, ?_⟩
  intro s' hlength hbytes
  obtain ⟨t', ht', hanswer'⟩ :=
    asmAvx2Checksum_returns cpu s'.mem (s'.gpr .rcx) (s'.gpr .rdx) rfl rfl rfl
  refine ⟨t', ⟨_, ht'⟩, ?_⟩
  have hnarrow : ∀ v : BitVec 16, (v.setWidth 64).setWidth 16 = v := by
    intro v
    simp
  rw [hanswer, hnarrow] at hbytes
  rw [hanswer', hnarrow, hlength]
  exact checksumValue_appended ha hn heven hbytes

/-- The bytes 64 to 163, and the buffer after them that a second call is given. -/
theorem asmFastChecksumX64_verifies_counting :
    ∃ t, asmAvx2Checksum.Returns default (((default : State).setMem counting).call2 64 100) t ∧
      ∀ s' : State, s'.gpr .rdx = 102 →
        readBytes s'.mem (s'.gpr .rcx) 102 = readBytes counting 64 100 ++
          [lowByte ((t.gpr .rax).setWidth 16), highByte ((t.gpr .rax).setWidth 16)] →
        ∃ t', asmAvx2Checksum.Returns default s' t' ∧ (t'.gpr .rax).setWidth 16 = 0#16 :=
  asmFastChecksumX64_verifies default (((default : State).setMem counting).call2 64 100) (by decide)
    (by decide) (by decide)

end Disping.Assembly
