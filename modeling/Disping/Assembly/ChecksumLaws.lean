import Disping.Assembly.Dispatch
import Disping.Assembly.ReceiverCheck

/-! # What the checksum tells apart

The routines see the buffer as a list of 16-bit words and keep its ones-complement sum only. One
changed word is noticed unless the two zeros are exchanged, and the sums of two pieces make up the
sum of the whole.
-/
namespace Disping.Assembly
open Machine Arithmetic

/-- The words as the routines add them, an odd last byte in the upper half. -/
def routineWords : List (BitVec 8) → List (BitVec 16)
  | [] => []
  | [b] => [b ++ 0#8]
  | lo :: hi :: rest => (hi ++ lo) :: routineWords rest

def wordTotal (ws : List (BitVec 16)) : ℕ := (ws.map BitVec.toNat).sum

theorem wordSum_eq_wordTotal (m : Memory) (a : Word) (n : ℕ) :
    wordSum m a n = wordTotal (routineWords (readBytes m a n)) := by
  induction n using Nat.twoStepInduction generalizing a with
  | zero => rfl
  | one =>
    rw [readBytes_succ, readBytes, List.range_zero, List.map_nil, wordSum]
    simp only [routineWords, wordTotal, List.map_cons, List.map_nil, List.sum_cons, List.sum_nil,
      toNat_append_bytes]
    simp
  | more n ih _ =>
    have hload : loadNat m a 2 = (m a).toNat + 256 * (m (a + 1)).toNat := by simp [loadNat]
    have hnext : a + 1 + 1 = a + 2 := by
      rw [BitVec.add_assoc]
      rfl
    rw [wordSum, ih, hload, readBytes_succ, readBytes_succ, hnext]
    simp only [routineWords, wordTotal, List.map_cons, List.sum_cons, toNat_append_bytes]

section Detection

theorem onesEq_iff_of_lt {x y c : ℕ} (hx : x < 2 ^ 16) (hy : y < 2 ^ 16) :
    OnesEq 16 (c + x) (c + y) ↔
      x = y ∨ c ≠ 0 ∧ (x = 0 ∧ y = 2 ^ 16 - 1 ∨ x = 2 ^ 16 - 1 ∧ y = 0) := by
  constructor
  · rintro ⟨hmod, hzero⟩
    have hword : x % (2 ^ 16 - 1) = y % (2 ^ 16 - 1) := Nat.ModEq.add_left_cancel' c hmod
    omega
  · rintro (rfl | ⟨hc, hswap⟩)
    · exact OnesEq.refl 16 _
    · have hmod : x ≡ y [MOD 2 ^ 16 - 1] := by
        rcases hswap with ⟨rfl, rfl⟩ | ⟨rfl, rfl⟩ <;> decide
      exact ⟨hmod.add_left c, by omega⟩

theorem wordTotal_ne_zero_iff (ws : List (BitVec 16)) : wordTotal ws ≠ 0 ↔ ∃ w ∈ ws, w ≠ 0 := by
  have hzero : wordTotal ws = 0 ↔ ∀ w ∈ ws, w = 0 := by
    rw [wordTotal, List.sum_eq_zero_iff_forall_eq_nat]
    simp [← BitVec.toNat_inj]
  rw [ne_eq, hzero]
  push Not
  rfl

theorem wordTotal_insert (before after : List (BitVec 16)) (w : BitVec 16) :
    wordTotal (before ++ w :: after) = wordTotal (before ++ after) + w.toNat := by
  simp only [wordTotal, List.map_append, List.map_cons, List.sum_append, List.sum_cons]
  omega

/-- One word in another's place leaves the sum as it is only when the two zeros change places. -/
theorem onesEq_insert_iff (before after : List (BitVec 16)) (u v : BitVec 16) :
    OnesEq 16 (wordTotal (before ++ u :: after)) (wordTotal (before ++ v :: after)) ↔
      u = v ∨ (∃ w ∈ before ++ after, w ≠ 0) ∧ (u = 0 ∧ v = 0xFFFF ∨ u = 0xFFFF ∧ v = 0) := by
  have hzero : ∀ w : BitVec 16, w.toNat = 0 ↔ w = 0 := fun w => BitVec.toNat_inj (y := 0#16)
  have hones : ∀ w : BitVec 16, w.toNat = 2 ^ 16 - 1 ↔ w = 0xFFFF :=
    fun w => BitVec.toNat_inj (y := 0xFFFF#16)
  rw [wordTotal_insert, wordTotal_insert, onesEq_iff_of_lt u.isLt v.isLt, BitVec.toNat_inj,
    wordTotal_ne_zero_iff, hzero, hzero, hones, hones]

end Detection

section Pieces
variable {m : Memory} {a n₁ n₂ : Word}

theorem wordSum_add (m : Memory) (a : Word) {i : ℕ} (heven : i % 2 = 0) (j : ℕ) :
    wordSum m a (i + j) = wordSum m a i + wordSum m (a + BitVec.ofNat 64 i) j := by
  induction i using Nat.twoStepInduction generalizing a with
  | zero => simp [wordSum]
  | one => simp at heven
  | more i ih _ =>
    have hnext : a + 2 + BitVec.ofNat 64 i = a + BitVec.ofNat 64 (i + 2) := by
      rw [BitVec.ofNat_add, BitVec.add_assoc, BitVec.add_comm (BitVec.ofNat 64 i)]
      rfl
    rw [show i + 2 + j = i + j + 2 by omega, wordSum, wordSum, ih (a + 2) (by omega), hnext,
      Nat.add_assoc]

theorem complement_checksumValue {n : Word} (ha : a ≠ 0) (hn : n ≠ 0) :
    (~~~checksumValue m a n).toNat = onesFold 16 (wordSum m a n.toNat) := by
  rw [checksumValue, if_neg (not_or.mpr ⟨ha, hn⟩), BitVec.not_not, BitVec.toNat_ofNat,
    Nat.mod_eq_of_lt (onesFold_lt (by decide) _)]

/-- The ones-complement sum of the pieces' sums is the sum of the whole. -/
theorem checksumValue_add (ha : a ≠ 0) (ha₂ : a + n₁ ≠ 0) (hn₁ : n₁ ≠ 0) (hn₂ : n₂ ≠ 0)
    (heven : n₁.toNat % 2 = 0) (hlen : n₁.toNat + n₂.toNat < 2 ^ 64) :
    checksumValue m a (n₁ + n₂) =
      ~~~endAround (~~~checksumValue m a n₁) (~~~checksumValue m (a + n₁) n₂) := by
  have hwhole : (n₁ + n₂).toNat = n₁.toNat + n₂.toNat := by
    rw [BitVec.toNat_add, Nat.mod_eq_of_lt hlen]
  have hpresent : n₁ + n₂ ≠ 0 := by
    intro hzero
    rw [hzero] at hwhole
    exact hn₁ (BitVec.eq_of_toNat_eq (by change 0 = _ at hwhole; simp; omega))
  have hsum := endAround_onesEq (~~~checksumValue m a n₁) (~~~checksumValue m (a + n₁) n₂)
  rw [complement_checksumValue ha hn₁, complement_checksumValue ha₂ hn₂] at hsum
  have hpieces : OnesEq 16 (endAround (~~~checksumValue m a n₁) (~~~checksumValue m (a + n₁) n₂)).toNat
      (wordSum m a (n₁ + n₂).toNat) := by
    rw [hwhole, wordSum_add m a heven, BitVec.ofNat_toNat, BitVec.setWidth_eq]
    exact hsum.trans ((onesFold_onesEq 16 _).add (onesFold_onesEq 16 _))
  rw [← BitVec.not_inj, BitVec.not_not]
  apply BitVec.eq_of_toNat_eq
  rw [complement_checksumValue ha hpresent]
  exact (eq_onesFold (by decide) (BitVec.isLt _) hpieces).symm

end Pieces

section Routines
variable (cpu : Cpu)

/-- The words that a call with a pointer and a length adds. -/
def inputWords (s : State) (buffer lenBytes : Word) : List (BitVec 16) :=
  routineWords (readBytes s.mem buffer lenBytes.toNat)

theorem setWidth_answer_inj {u v : BitVec 16} : u.setWidth 64 = v.setWidth 64 ↔ u = v := by
  constructor
  · intro h
    have hnarrow := congrArg (fun w : Word => w.setWidth 16) h
    simpa using hnarrow
  · exact congrArg _

/-- Two inputs that differ in one word, wherever they lie and whichever routines read them, get one
answer exactly when the two words are equal or are the two zeros among other words. -/
theorem ChecksumFn.run_single_word (f f' : ChecksumFn) (s s' : State)
    (buffer lenBytes buffer' lenBytes' : Word) (hbuffer : buffer ≠ 0) (hbuffer' : buffer' ≠ 0)
    (before after : List (BitVec 16)) (u v : BitVec 16)
    (hwords : inputWords s buffer lenBytes = before ++ u :: after)
    (hwords' : inputWords s' buffer' lenBytes' = before ++ v :: after) :
    ∃ t t', f.run cpu s buffer lenBytes = some t ∧ f'.run cpu s' buffer' lenBytes' = some t' ∧
      (t.gpr .rax = t'.gpr .rax ↔
        u = v ∨ (∃ w ∈ before ++ after, w ≠ 0) ∧ (u = 0 ∧ v = 0xFFFF ∨ u = 0xFFFF ∧ v = 0)) := by
  have hpresent : ∀ (m : Memory) (a n : Word) (w : BitVec 16),
      routineWords (readBytes m a n.toNat) = before ++ w :: after → n ≠ 0 := by
    rintro m a n w hlist rfl
    exact List.cons_ne_nil _ _ (List.append_eq_nil_iff.mp hlist.symm).2
  obtain ⟨t, ht, hanswer⟩ := f.run_answered cpu s buffer lenBytes
  obtain ⟨t', ht', hanswer'⟩ := f'.run_answered cpu s' buffer' lenBytes'
  refine ⟨t, t', ht, ht', ?_⟩
  rw [hanswer, hanswer', setWidth_answer_inj, checksumValue, checksumValue,
    if_neg (not_or.mpr ⟨hbuffer, hpresent _ _ _ u hwords⟩),
    if_neg (not_or.mpr ⟨hbuffer', hpresent _ _ _ v hwords'⟩), complement_onesFold_inj,
    wordSum_eq_wordTotal, wordSum_eq_wordTotal]
  change OnesEq 16 (wordTotal (inputWords s buffer lenBytes))
    (wordTotal (inputWords s' buffer' lenBytes')) ↔ _
  rw [hwords, hwords']
  exact onesEq_insert_iff before after u v

/-- Bytes 0, 0, 1, 0 and 0xFF, 0xFF, 1, 0 at 64. -/
def wordAt64 (w : BitVec 8) : State :=
  (default : State).setMem fun x => if x = 64 ∨ x = 65 then w else if x = 66 then 1 else 0

theorem ChecksumFn.run_single_word_zeros : ∃ t t',
    ChecksumFn.asmAvx2Checksum.run default (wordAt64 0) 64 4 = some t ∧
      ChecksumFn.asmSse2Checksum.run default (wordAt64 0xFF) 64 4 = some t' ∧
      t.gpr .rax = t'.gpr .rax := by
  obtain ⟨t, t', ht, ht', hiff⟩ := ChecksumFn.run_single_word default .asmAvx2Checksum
    .asmSse2Checksum (wordAt64 0) (wordAt64 0xFF) 64 4 64 4 (by decide) (by decide) [] [1] 0 0xFFFF
    (by decide) (by decide)
  have hother : ∃ w ∈ ([] : List (BitVec 16)) ++ [1], w ≠ 0 := ⟨1, by simp, by decide⟩
  exact ⟨t, t', ht, ht', hiff.mpr (.inr ⟨hother, .inl ⟨rfl, rfl⟩⟩)⟩

/-- A buffer cut after an even number of bytes: the three answers, from any three routines, add up
in ones-complement. -/
theorem ChecksumFn.run_pieces (f f₁ f₂ : ChecksumFn) (s : State) (buffer n₁ n₂ : Word)
    (hbuffer : buffer ≠ 0) (hsecond : buffer + n₁ ≠ 0) (hn₁ : n₁ ≠ 0) (hn₂ : n₂ ≠ 0)
    (heven : n₁.toNat % 2 = 0) (hlen : n₁.toNat + n₂.toNat < 2 ^ 64) :
    ∃ t t₁ t₂, f.run cpu s buffer (n₁ + n₂) = some t ∧ f₁.run cpu s buffer n₁ = some t₁ ∧
      f₂.run cpu s (buffer + n₁) n₂ = some t₂ ∧
      ~~~(t.gpr .rax).setWidth 16 =
        endAround (~~~(t₁.gpr .rax).setWidth 16) (~~~(t₂.gpr .rax).setWidth 16) := by
  obtain ⟨t, ht, hanswer⟩ := f.run_answered cpu s buffer (n₁ + n₂)
  obtain ⟨t₁, ht₁, hanswer₁⟩ := f₁.run_answered cpu s buffer n₁
  obtain ⟨t₂, ht₂, hanswer₂⟩ := f₂.run_answered cpu s (buffer + n₁) n₂
  have hnarrow : ∀ v : BitVec 16, (v.setWidth 64).setWidth 16 = v := by
    intro v
    simp
  refine ⟨t, t₁, t₂, ht, ht₁, ht₂, ?_⟩
  rw [hanswer, hanswer₁, hanswer₂, hnarrow, hnarrow, hnarrow,
    checksumValue_add hbuffer hsecond hn₁ hn₂ heven hlen, BitVec.not_not]

theorem ChecksumFn.run_pieces_at_64 : ∃ t t₁ t₂,
    ChecksumFn.asmSse2Checksum.run default (wordAt64 7) 64 5 = some t ∧
      ChecksumFn.asmAvx2Checksum.run default (wordAt64 7) 64 2 = some t₁ ∧
      ChecksumFn.asmSse2Checksum.run default (wordAt64 7) 66 3 = some t₂ ∧
      ~~~(t.gpr .rax).setWidth 16 =
        endAround (~~~(t₁.gpr .rax).setWidth 16) (~~~(t₂.gpr .rax).setWidth 16) :=
  ChecksumFn.run_pieces default .asmSse2Checksum .asmAvx2Checksum .asmSse2Checksum (wordAt64 7) 64 2 3
    (by decide) (by decide) (by decide) (by decide) (by decide) (by decide)

end Routines

end Disping.Assembly
