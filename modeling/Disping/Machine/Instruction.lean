import Disping.Machine.State

/-! # Instructions, routines and their runs

The subset of x86-64 that the routines use, one constructor for each
instruction and operand width. A routine is a list of labelled blocks with
fall-through; a run is counted in blocks. Double arithmetic and the processor's
identification leaf are parameters, since no frame or memory result depends on
them.
-/
namespace Disping.Machine

/-- Scalar double arithmetic on 64-bit lanes, the rounding left open. -/
structure FpOps where
  add : Word → Word → Word
  sub : Word → Word → Word
  mul : Word → Word → Word
  div : Word → Word → Word
  sqrt : Word → Word
  /-- The strict comparison by which minsd and maxsd keep their destination. -/
  lt : Word → Word → Bool
  /-- Conversion from a signed 64-bit integer. -/
  ofInt : Word → Word

structure CpuidResult where
  eax : BitVec 32
  ebx : BitVec 32
  ecx : BitVec 32
  edx : BitVec 32

structure Cpu where
  fp : FpOps
  /-- Indexed by the leaf in eax and the subleaf in ecx. -/
  cpuid : BitVec 32 → BitVec 32 → CpuidResult

/-- A processor without optional features. -/
instance : Inhabited Cpu where
  default := {
    fp := ⟨fun x _ => x, fun x _ => x, fun x _ => x, fun x _ => x, id, fun _ _ => false, id⟩
    cpuid := fun _ _ => ⟨0, 0, 0, 0⟩ }

/-- Bit 5 of ebx in leaf 7. -/
def Cpu.avx2 (cpu : Cpu) : Bool := (cpu.cpuid 7 0).ebx.getLsbD 5

/-- Effective address: base, optional index scaled by eight, displacement. -/
structure Ea where
  base : Reg
  index : Option Reg
  disp : Word

/-- Base and displacement, the common form. -/
def Ea.off (base : Reg) (disp : Word) : Ea := ⟨base, none, disp⟩

inductive Src
  | reg (r : Reg)
  | imm (v : Word)
  | mem (a : Ea)

inductive Cond
  | jb | jae | jz | jnz

inductive Instr (L : Type)
  -- data movement
  | mov (d : Reg) (x : Src)
  | mov32 (d : Reg) (x : Src)
  | mov8 (d : Reg) (x : Src)
  | movzx16 (d : Reg) (x : Src)
  | movzx8 (d : Reg) (x : Src)
  | store8 (a : Ea) (x : Src)
  | push (r : Reg)
  | pop (r : Reg)
  -- arithmetic
  | add (d : Reg) (x : Src)
  | add32 (d : Reg) (x : Src)
  | add16 (d : Reg) (x : Src)
  | adc (d : Reg) (x : Src)
  | adc32 (d : Reg) (x : Src)
  | adc16 (d : Reg) (x : Src)
  | sub (d : Reg) (x : Src)
  | cmp (d : Reg) (x : Src)
  | test (d : Reg) (x : Src)
  | xor (d : Reg) (x : Src)
  | xor32 (d : Reg) (x : Src)
  | not32 (d : Reg)
  | not16 (d : Reg)
  | inc (d : Reg)
  | dec (d : Reg)
  | shl32 (d : Reg) (n : ℕ)
  | shr (d : Reg) (n : ℕ)
  | shr32 (d : Reg) (n : ℕ)
  | clc
  | crc32q (d : Reg) (x : Src)
  | crc32b (d : Reg) (x : Src)
  | cpuid
  | bt32 (d : Reg) (n : ℕ)
  -- vectors
  | vpxor (i : Fin 16)
  | pxor (i : Fin 16)
  | xorpd (i : Fin 16)
  | vmovdqu (i : Fin 16) (a : Ea)
  | vmovntdq (a : Ea) (i : Fin 16)
  | movntdq (a : Ea) (i : Fin 16)
  | sfence
  | vzeroupper
  -- scalar doubles
  | movsdLoad (i : Fin 16) (a : Ea)
  | movsdStore (a : Ea) (i : Fin 16)
  | movsd (i j : Fin 16)
  | addsd (i j : Fin 16)
  | subsd (i j : Fin 16)
  | mulsd (i j : Fin 16)
  | mulsdConst (i : Fin 16) (v : Word)
  | divsd (i j : Fin 16)
  | minsd (i j : Fin 16)
  | maxsd (i j : Fin 16)
  | sqrtsd (i j : Fin 16)
  | cvtsi2sd (i : Fin 16) (r : Reg)
  | andpdConst (i : Fin 16) (v : BitVec 128)
  -- control
  | jmp (l : L)
  | jcc (c : Cond) (l : L)
  | ret

namespace State

def ea (s : State) (a : Ea) : Word :=
  s.gpr a.base + (match a.index with | some r => s.gpr r * 8 | none => 0) + a.disp

@[simp] theorem ea_off (s : State) (r : Reg) (d : Word) : s.ea (.off r d) = s.gpr r + d := by
  simp [ea, Ea.off]

def src (s : State) (w : ℕ) : Src → BitVec w
  | .reg r => (s.gpr r).setWidth w
  | .imm v => v.setWidth w
  | .mem a => load w s.mem (s.ea a)

/-- A 32-bit destination clears the upper half of its register. -/
def setReg32 (s : State) (r : Reg) (v : BitVec 32) : State := s.setReg r (v.setWidth 64)

/-- An 8- or 16-bit destination keeps the bits above it. -/
def setLow {w : ℕ} (s : State) (r : Reg) (v : BitVec w) : State :=
  s.setReg r (BitVec.ofNat 64 ((s.gpr r).toNat / 2 ^ w * 2 ^ w + v.toNat))

section LowBits
variable {w : ℕ} (s : State) (r q : Reg) (v : BitVec w)

theorem gpr_setLow_self (hw : w ≤ 64) : ((s.setLow r v).gpr r).setWidth w = v := by
  apply BitVec.eq_of_toNat_eq
  have hdvd : 2 ^ w ∣ 2 ^ 64 := Nat.pow_dvd_pow 2 hw
  simp only [setLow, gpr_setReg, if_true, BitVec.toNat_setWidth, BitVec.toNat_ofNat]
  rw [Nat.mod_mod_of_dvd _ hdvd, Nat.mul_add_mod_self_right, Nat.mod_eq_of_lt v.isLt]

@[simp] theorem gpr_setLow_of_ne (h : q ≠ r) : (s.setLow r v).gpr q = s.gpr q := by
  simp [setLow, h]

@[simp] theorem mem_setLow : (s.setLow r v).mem = s.mem := rfl
@[simp] theorem ymm_setLow : (s.setLow r v).ymm = s.ymm := rfl
@[simp] theorem cf_setLow : (s.setLow r v).cf = s.cf := rfl
@[simp] theorem zf_setLow : (s.setLow r v).zf = s.zf := rfl
@[simp] theorem streamed_setLow : (s.setLow r v).streamed = s.streamed := rfl

end LowBits

def lane (s : State) (i : Fin 16) : Word := (s.ymm i).setWidth 64

/-- A scalar result replaces the low lane and keeps the other three. -/
def setLane (s : State) (i : Fin 16) (v : Word) : State :=
  s.setYmm i ((s.ymm i).extractLsb' 64 192 ++ v)

/-- A legacy 128-bit result keeps the upper half of the 256-bit register. -/
def setXmm (s : State) (i : Fin 16) (v : BitVec 128) : State :=
  s.setYmm i ((s.ymm i).extractLsb' 128 128 ++ v)

section Lanes
variable (s : State) (i j : Fin 16)

@[simp] theorem lane_setLane (v : Word) : (s.setLane i v).lane j = if j = i then v else s.lane j := by
  by_cases h : j = i
  · rw [if_pos h, h]
    simpa [lane, setLane] using
      BitVec.setWidth_append_eq_right (a := (s.ymm i).extractLsb' 64 192) (b := v)
  · simp [lane, setLane, h]

@[simp] theorem xmm_setXmm (v : BitVec 128) : (s.setXmm i v).xmm j = if j = i then v else s.xmm j := by
  by_cases h : j = i
  · rw [if_pos h, h]
    simpa [xmm, setXmm] using
      BitVec.setWidth_append_eq_right (a := (s.ymm i).extractLsb' 128 128) (b := v)
  · simp [xmm, setXmm, h]

theorem lane_eq_xmm : s.lane i = (s.xmm i).setWidth 64 := by simp [lane, xmm]

@[simp] theorem lane_setXmm (v : BitVec 128) :
    (s.setXmm i v).lane j = if j = i then v.setWidth 64 else s.lane j := by
  rw [lane_eq_xmm, xmm_setXmm, lane_eq_xmm]
  split <;> rfl

@[simp] theorem gpr_setLane (v : Word) : (s.setLane i v).gpr = s.gpr := rfl
@[simp] theorem mem_setLane (v : Word) : (s.setLane i v).mem = s.mem := rfl
@[simp] theorem gpr_setXmm (v : BitVec 128) : (s.setXmm i v).gpr = s.gpr := rfl
@[simp] theorem mem_setXmm (v : BitVec 128) : (s.setXmm i v).mem = s.mem := rfl
@[simp] theorem lane_setReg (r : Reg) (v : Word) : (s.setReg r v).lane i = s.lane i := rfl
@[simp] theorem lane_setFlags (c z : Bool) : (s.setFlags c z).lane i = s.lane i := rfl
@[simp] theorem lane_setZero (z : Bool) : (s.setZero z).lane i = s.lane i := rfl
@[simp] theorem lane_setMem (m : Memory) : (s.setMem m).lane i = s.lane i := rfl

end Lanes

def condition (s : State) : Cond → Bool
  | .jb => s.cf
  | .jae => !s.cf
  | .jz => s.zf
  | .jnz => !s.zf

end State

section Arithmetic
variable {w : ℕ} (x y : BitVec w) (c : Bool)

def carryValue : BitVec w := x + y + BitVec.ofNat w c.toNat

@[simp] theorem carryValue_false : carryValue x y false = x + y := by simp [carryValue]

def carryOut : Bool := decide (2 ^ w ≤ x.toNat + y.toNat + c.toNat)

end Arithmetic

/-- One step of the long division by 0x11EDC6F41 over GF(2). -/
def mod2Step (r : BitVec 32) (b : Bool) : BitVec 32 :=
  let t : BitVec 33 := r ++ BitVec.ofBool b
  if t.msb then (t ^^^ 0x11EDC6F41#33).setWidth 32 else t.setWidth 32

def mod2 {w : ℕ} (x : BitVec w) : BitVec 32 :=
  (List.ofFn fun i : Fin w => x.getMsbD i).foldl mod2Step 0

/-- The crc32 instruction: reflect both operands, shift, divide, reflect back. -/
def crc32 {w : ℕ} (acc : BitVec 32) (x : BitVec w) : BitVec 32 :=
  (mod2 (x.reverse.setWidth (w + 32) <<< 32 ^^^ acc.reverse.setWidth (w + 32) <<< w)).reverse

inductive Outcome (L : Type)
  | next (s : State)
  | jump (l : L) (s : State)
  | ret (s : State)
  | fault

section Execution
variable {L : Type} (cpu : Cpu) (s : State)

def addition {w : ℕ} (write : BitVec w → State) (x y : BitVec w) (c : Bool) : State :=
  (write (carryValue x y c)).setFlags (carryOut x y c) (carryValue x y c == 0)

def logic {w : ℕ} (write : BitVec w → State) (v : BitVec w) : State :=
  (write v).setFlags false (v == 0)

def scalar (f : Word → Word → Word) (i j : Fin 16) : State :=
  s.setLane i (f (s.lane i) (s.lane j))

def exec : Instr L → Outcome L
  | .mov d x => .next (s.setReg d (s.src 64 x))
  | .mov32 d x => .next (s.setReg32 d (s.src 32 x))
  | .mov8 d x => .next (s.setLow d (s.src 8 x))
  | .movzx16 d x => .next (s.setReg d ((s.src 16 x).setWidth 64))
  | .movzx8 d x => .next (s.setReg d ((s.src 8 x).setWidth 64))
  | .store8 a x => .next (s.setMem (store s.mem (s.ea a) (s.src 8 x)))
  | .push r => .next ((s.setMem (store s.mem (s.gpr .rsp - 8) (s.gpr r))).setReg .rsp (s.gpr .rsp - 8))
  | .pop r => .next ((s.setReg .rsp (s.gpr .rsp + 8)).setReg r (load 64 s.mem (s.gpr .rsp)))
  | .add d x => .next (addition (s.setReg d) (s.gpr d) (s.src 64 x) false)
  | .add32 d x => .next (addition (s.setReg32 d) ((s.gpr d).setWidth 32) (s.src 32 x) false)
  | .add16 d x => .next (addition (s.setLow d) ((s.gpr d).setWidth 16) (s.src 16 x) false)
  | .adc d x => .next (addition (s.setReg d) (s.gpr d) (s.src 64 x) s.cf)
  | .adc32 d x => .next (addition (s.setReg32 d) ((s.gpr d).setWidth 32) (s.src 32 x) s.cf)
  | .adc16 d x => .next (addition (s.setLow d) ((s.gpr d).setWidth 16) (s.src 16 x) s.cf)
  | .sub d x => .next ((s.setReg d (s.gpr d - s.src 64 x)).setFlags
      (decide (s.gpr d < s.src 64 x)) (s.gpr d == s.src 64 x))
  | .cmp d x => .next (s.setFlags (decide (s.gpr d < s.src 64 x)) (s.gpr d == s.src 64 x))
  | .test d x => .next (s.setFlags false (s.gpr d &&& s.src 64 x == 0))
  | .xor d x => .next (logic (s.setReg d) (s.gpr d ^^^ s.src 64 x))
  | .xor32 d x => .next (logic (s.setReg32 d) ((s.gpr d).setWidth 32 ^^^ s.src 32 x))
  | .not32 d => .next (s.setReg32 d (~~~(s.gpr d).setWidth 32))
  | .not16 d => .next (s.setLow d (~~~(s.gpr d).setWidth 16))
  -- inc and dec leave the carry flag alone
  | .inc d => .next ((s.setReg d (s.gpr d + 1)).setZero (s.gpr d + 1 == 0))
  | .dec d => .next ((s.setReg d (s.gpr d - 1)).setZero (s.gpr d - 1 == 0))
  | .shl32 d n => .next ((s.setReg32 d ((s.gpr d).setWidth 32 <<< n)).setFlags
      (((s.gpr d).setWidth 32).getLsbD (32 - n)) ((s.gpr d).setWidth 32 <<< n == 0))
  | .shr d n => .next ((s.setReg d (s.gpr d >>> n)).setFlags
      ((s.gpr d).getLsbD (n - 1)) (s.gpr d >>> n == 0))
  | .shr32 d n => .next ((s.setReg32 d ((s.gpr d).setWidth 32 >>> n)).setFlags
      (((s.gpr d).setWidth 32).getLsbD (n - 1)) ((s.gpr d).setWidth 32 >>> n == 0))
  | .clc => .next (s.setFlags false s.zf)
  | .crc32q d x => .next (s.setReg32 d (crc32 ((s.gpr d).setWidth 32) (s.src 64 x)))
  | .crc32b d x => .next (s.setReg32 d (crc32 ((s.gpr d).setWidth 32) (s.src 8 x)))
  | .cpuid =>
    let r := cpu.cpuid ((s.gpr .rax).setWidth 32) ((s.gpr .rcx).setWidth 32)
    .next ((((s.setReg32 .rax r.eax).setReg32 .rbx r.ebx).setReg32 .rcx r.ecx).setReg32 .rdx r.edx)
  | .bt32 d n => .next (s.setFlags (((s.gpr d).setWidth 32).getLsbD n) s.zf)
  | .vpxor i => .next (s.setYmm i 0)
  | .pxor i => .next (s.setXmm i 0)
  | .xorpd i => .next (s.setXmm i 0)
  | .vmovdqu i a => .next (s.setYmm i (load 256 s.mem (s.ea a)))
  | .vmovntdq a i =>
    if (s.ea a).toNat % 32 = 0 then
      .next ((s.setMem (store s.mem (s.ea a) (s.ymm i))).stream (s.ea a) 32)
    else .fault
  | .movntdq a i =>
    if (s.ea a).toNat % 16 = 0 then
      .next ((s.setMem (store s.mem (s.ea a) (s.xmm i))).stream (s.ea a) 16)
    else .fault
  | .sfence => .next s
  | .vzeroupper => .next { s with ymm := fun j => (s.xmm j).setWidth 256 }
  | .movsdLoad i a => .next (s.setXmm i ((load 64 s.mem (s.ea a)).setWidth 128))
  | .movsdStore a i => .next (s.setMem (store s.mem (s.ea a) (s.lane i)))
  | .movsd i j => .next (s.setLane i (s.lane j))
  | .addsd i j => .next (scalar s cpu.fp.add i j)
  | .subsd i j => .next (scalar s cpu.fp.sub i j)
  | .mulsd i j => .next (scalar s cpu.fp.mul i j)
  | .mulsdConst i v => .next (s.setLane i (cpu.fp.mul (s.lane i) v))
  | .divsd i j => .next (scalar s cpu.fp.div i j)
  | .minsd i j => .next (scalar s (fun x y => if cpu.fp.lt x y then x else y) i j)
  | .maxsd i j => .next (scalar s (fun x y => if cpu.fp.lt y x then x else y) i j)
  | .sqrtsd i j => .next (s.setLane i (cpu.fp.sqrt (s.lane j)))
  | .cvtsi2sd i r => .next (s.setLane i (cpu.fp.ofInt (s.gpr r)))
  | .andpdConst i v => .next (s.setXmm i (s.xmm i &&& v))
  | .jmp l => .jump l s
  | .jcc c l => if s.condition c then .jump l s else .next s
  | .ret => .ret (s.setReg .rsp (s.gpr .rsp + 8))

def runBlock : State → List (Instr L) → Outcome L
  | s, [] => .next s
  | s, i :: rest =>
    match exec cpu s i with
    | .next s' => runBlock s' rest
    | o => o

end Execution

namespace State
variable (s : State)

/-- The first two integer arguments of a call. -/
def call2 (a b : Word) : State := (s.setReg .rcx a).setReg .rdx b

def call3 (a b c : Word) : State := (s.call2 a b).setReg .r8 c

/-- An int result is read from eax. -/
def intResult : BitVec 32 := (s.gpr .rax).setWidth 32

end State

/-- Labelled blocks and the order in which they fall through. -/
structure Routine (L : Type) where
  entry : L
  code : L → List (Instr L)
  fall : L → Option L

namespace Routine
variable {L : Type} (r : Routine L) (cpu : Cpu)

/-- Execution from a label, with the number of blocks as fuel. -/
def run : ℕ → L → State → Option State
  | 0, _, _ => none
  | n + 1, l, s =>
    match runBlock cpu s (r.code l) with
    | .next s' =>
      match r.fall l with
      | some l' => run n l' s'
      | none => none
    | .jump l' s' => run n l' s'
    | .ret s' => some s'
    | .fault => none

/-- The routine, called at its entry, returns in the given state. -/
def Returns (s t : State) : Prop := ∃ n, r.run cpu n r.entry s = some t

end Routine

end Disping.Machine
