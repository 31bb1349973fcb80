import Disping.Machine.State

/-! # Windows of memory

Addresses wrap, so a window is described by offsets from its base. Clearing and
copying extend by one store at a time, which is what block loops of different
strides have in common.
-/
namespace Disping.Machine

theorem toNat_sub_of_not_lt {x k : Word} (h : ¬ x < k) : (x - k).toNat = x.toNat - k.toNat := by
  rw [BitVec.lt_def] at h
  rw [BitVec.toNat_sub]
  have hx := x.isLt
  have hk := k.isLt
  omega

section Offsets
variable (a x : Word) (i : ℕ)

theorem offset_lt : offset a x < 2 ^ 64 := (x - a).isLt

@[simp] theorem offset_self : offset a a = 0 := by simp [offset]

theorem offset_add (hi : i < 2 ^ 64) :
    offset (a + BitVec.ofNat 64 i) x =
      if i ≤ offset a x then offset a x - i else 2 ^ 64 - i + offset a x := by
  have ha := a.isLt
  have hx := x.isLt
  by_cases h : i ≤ offset a x
  · rw [if_pos h]
    simp only [offset, BitVec.toNat_sub, BitVec.toNat_add, BitVec.toNat_ofNat] at h ⊢
    omega
  · rw [if_neg h]
    simp only [offset, BitVec.toNat_sub, BitVec.toNat_add, BitVec.toNat_ofNat] at h ⊢
    omega

theorem offset_of_add (hi : i < 2 ^ 64) : offset a (a + BitVec.ofNat 64 i) = i := by
  simp only [offset, BitVec.toNat_sub, BitVec.toNat_add, BitVec.toNat_ofNat]
  have ha := a.isLt
  omega

/-- A window that does not wrap is an interval of addresses. -/
theorem offset_lt_iff {n : ℕ} (hn : a.toNat + n ≤ 2 ^ 64) :
    offset a x < n ↔ a.toNat ≤ x.toNat ∧ x.toNat < a.toNat + n := by
  simp only [offset, BitVec.toNat_sub]
  have ha := a.isLt
  have hx := x.isLt
  omega

end Offsets

section Loads
variable (m : Memory) (a : Word)

theorem loadNat_lt (n : ℕ) : loadNat m a n < 256 ^ n := by
  induction n generalizing a with
  | zero => simp [loadNat]
  | succ n ih =>
    have hb := (m a).isLt
    have hr := ih (a + 1)
    rw [loadNat, Nat.pow_succ]
    omega

theorem loadNat_add (i j : ℕ) :
    loadNat m a (i + j) = loadNat m a i + 256 ^ i * loadNat m (a + BitVec.ofNat 64 i) j := by
  induction i generalizing a with
  | zero => simp [loadNat]
  | succ i ih =>
    have hshift : a + 1 + BitVec.ofNat 64 i = a + BitVec.ofNat 64 (i + 1) := by
      rw [BitVec.ofNat_add, BitVec.add_assoc, BitVec.add_comm (BitVec.ofNat 64 i)]
      rfl
    rw [Nat.succ_add, loadNat, loadNat, ih (a + 1), hshift, Nat.pow_succ]
    ring

theorem loadNat_congr {m' : Memory} (n : ℕ)
    (h : ∀ i < n, m (a + BitVec.ofNat 64 i) = m' (a + BitVec.ofNat 64 i)) :
    loadNat m a n = loadNat m' a n := by
  induction n with
  | zero => rfl
  | succ n ih =>
    rw [loadNat_add, loadNat_add, ih (fun i hi => h i (by omega))]
    simp only [loadNat, h n (by omega)]

theorem toNat_load (n : ℕ) : (load (8 * n) m a).toNat = loadNat m a n := by
  have hlt : loadNat m a n < 2 ^ (8 * n) := by
    rw [Nat.pow_mul]
    exact loadNat_lt m a n
  rw [load, BitVec.toNat_ofNat, Nat.mul_div_cancel_left n (by norm_num), Nat.mod_eq_of_lt hlt]

/-- Byte `i` of a little-endian value. -/
theorem loadNat_byte {n i : ℕ} (hi : i < n) :
    loadNat m a n / 256 ^ i % 256 = (m (a + BitVec.ofNat 64 i)).toNat := by
  have hlow := loadNat_lt m a i
  obtain ⟨j, rfl⟩ : ∃ j, n = i + (j + 1) := ⟨n - i - 1, by omega⟩
  rw [loadNat_add, Nat.add_mul_div_left _ _ (Nat.pow_pos (by norm_num)), Nat.div_eq_of_lt hlow,
    Nat.zero_add, loadNat, Nat.add_mul_mod_self_left]
  exact Nat.mod_eq_of_lt (m _).isLt

/-- A value of zero is made of zero bytes. -/
theorem loadNat_eq_zero {n : ℕ} (h : loadNat m a n = 0) : ∀ i < n, m (a + BitVec.ofNat 64 i) = 0 := by
  intro i hi
  have hbyte := loadNat_byte m a hi
  rw [h, Nat.zero_div, Nat.zero_mod] at hbyte
  exact BitVec.eq_of_toNat_eq hbyte.symm

theorem load_byte {n i : ℕ} (hi : i < n) :
    (load (8 * n) m a).extractLsb' (8 * i) 8 = m (a + BitVec.ofNat 64 i) := by
  apply BitVec.eq_of_toNat_eq
  rw [BitVec.extractLsb'_toNat, toNat_load, Nat.shiftRight_eq_div_pow, Nat.pow_mul]
  exact loadNat_byte m a hi

end Loads

section Stores
variable (m source : Memory) (a b : Word)

/-- A stored value reads back, byte by byte from any offset inside it. -/
theorem loadNat_store {n k : ℕ} (v : BitVec (8 * n)) (hn : n < 2 ^ 64) (i : ℕ) (hk : i + k ≤ n) :
    loadNat (store m a v) (a + BitVec.ofNat 64 i) k = v.toNat / 256 ^ i % 256 ^ k := by
  induction k generalizing i with
  | zero => simp [loadNat, Nat.mod_one]
  | succ k ih =>
    have hoff : offset a (a + BitVec.ofNat 64 i) = i := offset_of_add a i (by omega)
    have hshift : a + BitVec.ofNat 64 i + 1 = a + BitVec.ofNat 64 (i + 1) := by
      rw [BitVec.ofNat_add, BitVec.add_assoc]
      rfl
    rw [loadNat, hshift, ih (i + 1) (by omega)]
    simp only [store, hoff, Nat.mul_div_cancel_left n (show 0 < 8 by norm_num),
      if_pos (show i < n by omega), BitVec.extractLsb'_toNat, Nat.shiftRight_eq_div_pow]
    rw [show 2 ^ (8 * i) = 256 ^ i by rw [Nat.pow_mul], Nat.pow_succ 256 i,
      ← Nat.div_div_eq_div_mul, Nat.pow_succ 256 k, Nat.mul_comm (256 ^ k) 256, Nat.mod_mul]

theorem load_store {n : ℕ} (v : BitVec (8 * n)) (hn : n < 2 ^ 64) :
    load (8 * n) (store m a v) a = v := by
  apply BitVec.eq_of_toNat_eq
  have h := loadNat_store m a v hn 0 (k := n) (by omega)
  rw [toNat_load]
  simp only [BitVec.add_zero, Nat.pow_zero, Nat.div_one] at h
  rw [h, Nat.mod_eq_of_lt]
  have := v.isLt
  rwa [Nat.pow_mul] at this

/-- A store outside a window leaves what the window reads. -/
theorem loadNat_store_disjoint {w k : ℕ} (v : BitVec w)
    (h : ∀ i < k, w / 8 ≤ offset a (b + BitVec.ofNat 64 i)) :
    loadNat (store m a v) b k = loadNat m b k := by
  apply loadNat_congr
  intro i hi
  simp only [store, if_neg (Nat.not_lt.mpr (h i hi))]

/-- A store below a window leaves it readable. -/
theorem load_store_above {n j k : ℕ} (v : BitVec (8 * n)) (hj : n ≤ j) (hk : j + k ≤ 2 ^ 64) :
    load (8 * k) (store m a v) (a + BitVec.ofNat 64 j) = load (8 * k) m (a + BitVec.ofNat 64 j) := by
  apply BitVec.eq_of_toNat_eq
  rw [toNat_load, toNat_load]
  apply loadNat_store_disjoint
  intro i hi
  rw [BitVec.add_assoc, ← BitVec.ofNat_add, offset_of_add a (j + i) (by omega),
    Nat.mul_div_cancel_left n (by norm_num)]
  omega

@[simp] theorem clear_zero : clear m a 0 = m := by
  funext x
  simp [clear]

/-- One more zero store extends a cleared window. -/
theorem store_clear {w n k : ℕ} (hw : w / 8 = k) (hn : n + k < 2 ^ 64) :
    store (clear m a n) (a + BitVec.ofNat 64 n) (0 : BitVec w) = clear m a (n + k) := by
  funext x
  simp only [store, clear, hw, offset_add a x n (by omega)]
  have hx := offset_lt a x
  have hz : (0 : BitVec w).extractLsb' (8 * (offset (a + BitVec.ofNat 64 n) x)) 8 = 0 := by simp
  by_cases h1 : offset a x < n
  · have h2 : ¬ n ≤ offset a x := by omega
    simp [h1, h2, show offset a x < n + k by omega]
  · simp only [if_neg h1, if_pos (Nat.not_lt.mp h1)]
    by_cases h2 : offset a x < n + k
    · simp [h2, show offset a x - n < k by omega]
    · simp [h2, show ¬ offset a x - n < k by omega]

@[simp] theorem copy_zero : copy m source a b 0 = m := by
  funext x
  simp [copy]

/-- One more chunk of the source extends a copied window. -/
theorem store_copy {n k : ℕ} (hn : n + k < 2 ^ 64) :
    store (copy m source a b n) (a + BitVec.ofNat 64 n) (load (8 * k) source (b + BitVec.ofNat 64 n)) =
      copy m source a b (n + k) := by
  funext x
  have hx := offset_lt a x
  simp only [store, Nat.mul_div_cancel_left k (show 0 < 8 by norm_num)]
  rw [offset_add a x n (by omega)]
  by_cases h1 : n ≤ offset a x
  · simp only [if_pos h1]
    by_cases h2 : offset a x - n < k
    · have haddr : b + BitVec.ofNat 64 n + BitVec.ofNat 64 (offset a x - n) = b + (x - a) := by
        rw [BitVec.add_assoc, ← BitVec.ofNat_add, Nat.add_sub_cancel' h1, offset,
          BitVec.ofNat_toNat, BitVec.setWidth_eq]
      rw [if_pos h2, load_byte _ _ h2, haddr]
      simp only [copy, if_pos (show offset a x < n + k by omega)]
    · rw [if_neg h2]
      simp only [copy, if_neg (show ¬ offset a x < n by omega),
        if_neg (show ¬ offset a x < n + k by omega)]
  · simp only [if_neg h1, if_neg (show ¬ 2 ^ 64 - n + offset a x < k by omega)]
    simp only [copy, if_pos (show offset a x < n by omega), if_pos (show offset a x < n + k by omega)]

/-- The window of `n` bytes at `b` has no byte in the one at `a`. -/
def Apart (a b : Word) (n : ℕ) : Prop := ∀ i < n, n ≤ offset a (b + BitVec.ofNat 64 i)

/-- A copy into another window leaves the source readable. -/
theorem load_copy {n i k : ℕ} (h : Apart a b n) (hi : i + k ≤ n) {done : ℕ} (hdone : done ≤ n) :
    load (8 * k) (copy m source a b done) (b + BitVec.ofNat 64 i) =
      load (8 * k) m (b + BitVec.ofNat 64 i) := by
  apply BitVec.eq_of_toNat_eq
  rw [toNat_load, toNat_load]
  apply loadNat_congr
  intro j hj
  have hoff := h (i + j) (by omega)
  rw [BitVec.add_assoc, ← BitVec.ofNat_add]
  simp only [copy, if_neg (show ¬ offset a (b + BitVec.ofNat 64 (i + j)) < done by omega)]

end Stores

section Bytes
variable (m source : Memory) (a b : Word)

@[simp] theorem length_readBytes (n : ℕ) : (readBytes m a n).length = n := by simp [readBytes]

theorem readBytes_succ (n : ℕ) : readBytes m a (n + 1) = m a :: readBytes m (a + 1) n := by
  rw [readBytes, List.range_succ_eq_map, List.map_cons, List.map_map, readBytes]
  refine List.cons_eq_cons.mpr ⟨by simp, List.map_congr_left fun i _ => ?_⟩
  rw [Function.comp_apply, Nat.succ_eq_add_one, BitVec.ofNat_add, BitVec.add_comm (BitVec.ofNat 64 i),
    ← BitVec.add_assoc]
  rfl

theorem readBytes_add (i j : ℕ) :
    readBytes m a (i + j) = readBytes m a i ++ readBytes m (a + BitVec.ofNat 64 i) j := by
  rw [readBytes, List.range_add, List.map_append, List.map_map, readBytes, readBytes]
  refine congrArg _ (List.map_congr_left fun k _ => ?_)
  rw [Function.comp_apply, BitVec.ofNat_add, ← BitVec.add_assoc]

theorem readBytes_congr {m' : Memory} {n : ℕ}
    (h : ∀ i < n, m (a + BitVec.ofNat 64 i) = m' (b + BitVec.ofNat 64 i)) :
    readBytes m a n = readBytes m' b n := by
  apply List.map_congr_left
  intro i hi
  exact h i (List.mem_range.mp hi)

theorem readBytes_writeBytes {bytes : List (BitVec 8)} (h : bytes.length ≤ 2 ^ 64) :
    readBytes (writeBytes m a bytes) a bytes.length = bytes := by
  apply List.ext_getElem (by simp)
  intro i h1 h2
  have hoff : offset a (a + BitVec.ofNat 64 i) = i := offset_of_add a i (by omega)
  simp [readBytes, writeBytes, hoff, h2]

theorem readBytes_copy {n : ℕ} (h : n ≤ 2 ^ 64) :
    readBytes (copy m source a b n) a n = readBytes source b n := by
  apply readBytes_congr
  intro i hi
  have hoff : offset a (a + BitVec.ofNat 64 i) = i := offset_of_add a i (by omega)
  have hsub : a + BitVec.ofNat 64 i - a = BitVec.ofNat 64 i := by bv_omega
  simp only [copy, hoff, if_pos hi, hsub]

theorem readBytes_clear {n : ℕ} (h : n ≤ 2 ^ 64) :
    readBytes (clear m a n) a n = List.replicate n 0 := by
  apply List.ext_getElem (by simp)
  intro i h1 h2
  have hi : i < n := by simpa using h1
  have hoff : offset a (a + BitVec.ofNat 64 i) = i := offset_of_add a i (by omega)
  simp [readBytes, clear, hoff, hi]

end Bytes

end Disping.Machine
