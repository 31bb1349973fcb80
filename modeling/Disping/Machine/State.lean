import Mathlib.Data.Nat.ModEq
import Mathlib.Tactic.Ring
import Mathlib.Tactic.NormNum

/-! # x86-64 machine states

Sixteen 64-bit registers, sixteen 256-bit vector registers whose low halves are
the xmm registers, the two flags that conditional jumps read, and a flat byte
memory with wrapping addresses. Streaming stores are also logged, so that their
alignment is a statement about a finished run.
-/
namespace Disping.Machine

inductive Reg
  | rax | rcx | rdx | rbx | rsp | rbp | rsi | rdi
  | r8 | r9 | r10 | r11 | r12 | r13 | r14 | r15
deriving DecidableEq, Repr

abbrev Word := BitVec 64
abbrev Memory := Word → BitVec 8

/-- The last byte of each address. -/
def counting : Memory := fun x => x.setWidth 8

/-- Literals name the vector registers. -/
instance sixteen_neZero : NeZero (16 : ℕ) := ⟨by decide⟩

structure State where
  gpr : Reg → Word
  ymm : Fin 16 → BitVec 256
  cf : Bool
  zf : Bool
  mem : Memory
  /-- Address and width in bytes of every streaming store, the latest first. -/
  streamed : List (Word × ℕ)

/-- All registers and bytes zero. -/
instance : Inhabited State := ⟨⟨fun _ => 0, fun _ => 0, false, false, fun _ => 0, []⟩⟩

/-- Little-endian value of `n` consecutive bytes. -/
def loadNat (m : Memory) (a : Word) : ℕ → ℕ
  | 0 => 0
  | n + 1 => (m a).toNat + 256 * loadNat m (a + 1) n

def load (w : ℕ) (m : Memory) (a : Word) : BitVec w := BitVec.ofNat w (loadNat m a (w / 8))

/-- Offset of an address in a window, reduced like every address computation. -/
def offset (base x : Word) : ℕ := (x - base).toNat

def store {w : ℕ} (m : Memory) (a : Word) (v : BitVec w) : Memory := fun x =>
  if offset a x < w / 8 then v.extractLsb' (8 * offset a x) 8 else m x

/-- `n` zero bytes written from `a` on. -/
def clear (m : Memory) (a : Word) (n : ℕ) : Memory := fun x =>
  if offset a x < n then 0 else m x

/-- `n` bytes of the source memory written from `a` on. -/
def copy (m source : Memory) (a b : Word) (n : ℕ) : Memory := fun x =>
  if offset a x < n then source (b + (x - a)) else m x

/-- The `n` bytes from `a` on. -/
def readBytes (m : Memory) (a : Word) (n : ℕ) : List (BitVec 8) :=
  (List.range n).map fun i => m (a + BitVec.ofNat 64 i)

def writeBytes (m : Memory) (a : Word) (bytes : List (BitVec 8)) : Memory := fun x =>
  bytes.getD (offset a x) (m x)

namespace State

def setReg (s : State) (r : Reg) (v : Word) : State :=
  { s with gpr := fun q => if q = r then v else s.gpr q }

def setFlags (s : State) (c z : Bool) : State := { s with cf := c, zf := z }

def setZero (s : State) (z : Bool) : State := { s with zf := z }

def setYmm (s : State) (i : Fin 16) (v : BitVec 256) : State :=
  { s with ymm := fun j => if j = i then v else s.ymm j }

def setMem (s : State) (m : Memory) : State := { s with mem := m }

def stream (s : State) (a : Word) (n : ℕ) : State := { s with streamed := (a, n) :: s.streamed }

/-- The 128-bit half that the calling convention speaks about. -/
def xmm (s : State) (i : Fin 16) : BitVec 128 := (s.ymm i).setWidth 128

section Projections
variable (s : State) (r q : Reg) (v : Word) (c z : Bool) (i j : Fin 16) (x : BitVec 256)
variable (m : Memory) (a : Word) (n : ℕ)

@[simp] theorem gpr_setReg : (s.setReg r v).gpr q = if q = r then v else s.gpr q := rfl
@[simp] theorem ymm_setReg : (s.setReg r v).ymm = s.ymm := rfl
@[simp] theorem cf_setReg : (s.setReg r v).cf = s.cf := rfl
@[simp] theorem zf_setReg : (s.setReg r v).zf = s.zf := rfl
@[simp] theorem mem_setReg : (s.setReg r v).mem = s.mem := rfl
@[simp] theorem streamed_setReg : (s.setReg r v).streamed = s.streamed := rfl

@[simp] theorem gpr_setFlags : (s.setFlags c z).gpr = s.gpr := rfl
@[simp] theorem ymm_setFlags : (s.setFlags c z).ymm = s.ymm := rfl
@[simp] theorem cf_setFlags : (s.setFlags c z).cf = c := rfl
@[simp] theorem zf_setFlags : (s.setFlags c z).zf = z := rfl
@[simp] theorem mem_setFlags : (s.setFlags c z).mem = s.mem := rfl
@[simp] theorem streamed_setFlags : (s.setFlags c z).streamed = s.streamed := rfl

@[simp] theorem setFlags_setFlags (c' z' : Bool) : (s.setFlags c z).setFlags c' z' = s.setFlags c' z' := rfl

@[simp] theorem gpr_setZero : (s.setZero z).gpr = s.gpr := rfl
@[simp] theorem ymm_setZero : (s.setZero z).ymm = s.ymm := rfl
@[simp] theorem cf_setZero : (s.setZero z).cf = s.cf := rfl
@[simp] theorem zf_setZero : (s.setZero z).zf = z := rfl
@[simp] theorem mem_setZero : (s.setZero z).mem = s.mem := rfl
@[simp] theorem streamed_setZero : (s.setZero z).streamed = s.streamed := rfl

@[simp] theorem gpr_setYmm : (s.setYmm i x).gpr = s.gpr := rfl
@[simp] theorem ymm_setYmm : (s.setYmm i x).ymm j = if j = i then x else s.ymm j := rfl
@[simp] theorem cf_setYmm : (s.setYmm i x).cf = s.cf := rfl
@[simp] theorem zf_setYmm : (s.setYmm i x).zf = s.zf := rfl
@[simp] theorem mem_setYmm : (s.setYmm i x).mem = s.mem := rfl
@[simp] theorem streamed_setYmm : (s.setYmm i x).streamed = s.streamed := rfl

@[simp] theorem gpr_setMem : (s.setMem m).gpr = s.gpr := rfl
@[simp] theorem ymm_setMem : (s.setMem m).ymm = s.ymm := rfl
@[simp] theorem cf_setMem : (s.setMem m).cf = s.cf := rfl
@[simp] theorem zf_setMem : (s.setMem m).zf = s.zf := rfl
@[simp] theorem mem_setMem : (s.setMem m).mem = m := rfl
@[simp] theorem streamed_setMem : (s.setMem m).streamed = s.streamed := rfl

@[simp] theorem gpr_stream : (s.stream a n).gpr = s.gpr := rfl
@[simp] theorem ymm_stream : (s.stream a n).ymm = s.ymm := rfl
@[simp] theorem cf_stream : (s.stream a n).cf = s.cf := rfl
@[simp] theorem zf_stream : (s.stream a n).zf = s.zf := rfl
@[simp] theorem mem_stream : (s.stream a n).mem = s.mem := rfl
@[simp] theorem streamed_stream : (s.stream a n).streamed = (a, n) :: s.streamed := rfl

end Projections

end State

end Disping.Machine
