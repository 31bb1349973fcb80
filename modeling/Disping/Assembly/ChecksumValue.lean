import Disping.Arithmetic.EndAroundCarry
import Disping.Machine.Memory
import Mathlib.Algebra.BigOperators.Group.Finset.Basic

/-! # The value of a checksum run

The sum of little-endian 16-bit words with the odd trailing byte in the upper
half of its word, folded by the end-around carry and complemented. A 64-bit word
of the buffer stands for its four 16-bit words.
-/
namespace Disping.Assembly
open Machine Arithmetic

def wordSum (m : Memory) (a : Word) : ℕ → ℕ
  | 0 => 0
  | 1 => 256 * (m a).toNat
  | n + 2 => loadNat m a 2 + wordSum m (a + 2) n

/-- What the routines leave in ax; a null or empty buffer is answered early. -/
def checksumValue (m : Memory) (a n : Word) : BitVec 16 :=
  if a = 0 ∨ n = 0 then 0 else ~~~BitVec.ofNat 16 (onesFold 16 (wordSum m a n.toNat))

/-- A little-endian value of `k` words stands for the words themselves. -/
theorem wordSum_block (m : Memory) (a : Word) (k n : ℕ) :
    OnesEq 16 (loadNat m a (2 * k) + wordSum m (a + BitVec.ofNat 64 (2 * k)) n)
      (wordSum m a (2 * k + n)) := by
  induction k generalizing a with
  | zero => simpa [loadNat] using OnesEq.refl 16 (wordSum m a n)
  | succ k ih =>
    have hshift : a + BitVec.ofNat 64 (2 * (k + 1)) = a + 2 + BitVec.ofNat 64 (2 * k) := by
      rw [show 2 * (k + 1) = 2 + 2 * k by omega, BitVec.ofNat_add, ← BitVec.add_assoc]
      rfl
    have hsplit : loadNat m a (2 * (k + 1)) =
        loadNat m a 2 + 2 ^ 16 * loadNat m (a + 2) (2 * k) := by
      rw [show 2 * (k + 1) = 2 + 2 * k by omega, loadNat_add]
      rfl
    have hstep : wordSum m a (2 * (k + 1) + n) = loadNat m a 2 + wordSum m (a + 2) (2 * k + n) := by
      rw [show 2 * (k + 1) + n = 2 * k + n + 2 by omega, wordSum]
    rw [hshift, hsplit, hstep]
    have hcarry := (OnesEq.carry 16 (loadNat m a 2) (loadNat m (a + 2) (2 * k))).add_right
      (wordSum m (a + 2 + BitVec.ofNat 64 (2 * k)) n)
    refine hcarry.trans ?_
    rw [Nat.add_assoc]
    exact (ih (a + 2)).add_left _

/-- The 64-bit words of `j` consecutive chunks. -/
def chunkSum (m : Memory) (a : Word) (j : ℕ) : ℕ :=
  ∑ i ∈ Finset.range j, loadNat m (a + BitVec.ofNat 64 (8 * i)) 8

theorem wordSum_chunks (m : Memory) (a : Word) (j n : ℕ) :
    OnesEq 16 (chunkSum m a j + wordSum m (a + BitVec.ofNat 64 (8 * j)) n)
      (wordSum m a (8 * j + n)) := by
  induction j generalizing n with
  | zero => simpa [chunkSum] using OnesEq.refl 16 (wordSum m a n)
  | succ j ih =>
    have hshift : a + BitVec.ofNat 64 (8 * (j + 1)) =
        a + BitVec.ofNat 64 (8 * j) + BitVec.ofNat 64 (2 * 4) := by
      rw [BitVec.add_assoc, ← BitVec.ofNat_add]
      congr 2
    have hlen : 8 * (j + 1) + n = 8 * j + (8 + n) := by omega
    rw [hshift, hlen, chunkSum, Finset.sum_range_succ, Nat.add_assoc]
    have hblock := wordSum_block m (a + BitVec.ofNat 64 (8 * j)) 4 n
    exact (hblock.add_left _).trans (ih (8 + n))

end Disping.Assembly
