import Disping.Machine.Memory
import Disping.Machine.Rules

/-! # The calling convention as a frame rule

A routine whose instructions write volatile registers only keeps the
callee-saved ones on every path, which is a fact about its text. Pushes and pops
are outside the rule and are followed on the stack instead.
-/
namespace Disping.Machine
variable {L : Type}

/-- The integer registers that a callee must give back, the stack pointer apart. -/
def calleeSaved : List Reg := [.rbx, .rbp, .rsi, .rdi, .r12, .r13, .r14, .r15]

/-- What a routine owes its caller between entry and return. -/
structure Keeps (s u : State) : Prop where
  gpr : ∀ r ∈ calleeSaved, u.gpr r = s.gpr r
  rsp : u.gpr .rsp = s.gpr .rsp
  xmm : ∀ i : Fin 16, 6 ≤ i.val → u.xmm i = s.xmm i

/-- The same at return, when the return address has been popped. -/
structure GivesBack (s t : State) : Prop where
  gpr : ∀ r ∈ calleeSaved, t.gpr r = s.gpr r
  rsp : t.gpr .rsp = s.gpr .rsp + 8
  xmm : ∀ i : Fin 16, 6 ≤ i.val → t.xmm i = s.xmm i

theorem Keeps.refl (s : State) : Keeps s s := ⟨fun _ _ => rfl, rfl, fun _ _ => rfl⟩

theorem Keeps.trans {s u v : State} (h : Keeps s u) (h' : Keeps u v) : Keeps s v where
  gpr r hr := (h'.gpr r hr).trans (h.gpr r hr)
  rsp := h'.rsp.trans h.rsp
  xmm i hi := (h'.xmm i hi).trans (h.xmm i hi)

theorem Keeps.givesBack {s u t : State} (h : Keeps s u) (h' : GivesBack u t) : GivesBack s t where
  gpr r hr := (h'.gpr r hr).trans (h.gpr r hr)
  rsp := h'.rsp.trans (by rw [h.rsp])
  xmm i hi := (h'.xmm i hi).trans (h.xmm i hi)

/-- A register that the convention lets a callee change. -/
def Reg.volatile (r : Reg) : Bool := !(calleeSaved.contains r) && r != .rsp

section Writes
variable {s u v : State} {d : Reg} {i : Fin 16}

theorem Reg.volatile.ne (hd : d.volatile = true) {r : Reg} (hr : r ∈ calleeSaved ∨ r = .rsp) : r ≠ d := by
  rintro rfl
  simp only [Reg.volatile, Bool.and_eq_true, Bool.not_eq_true', List.contains_eq_mem,
    decide_eq_false_iff_not, bne_iff_ne] at hd
  rcases hr with hr | hr
  · exact hd.1 hr
  · exact hd.2 hr

/-- A state that differs from a kept one in a volatile register, flags or memory. -/
theorem Keeps.write (hd : d.volatile = true) (hgpr : ∀ r, r ≠ d → u.gpr r = s.gpr r)
    (hymm : u.ymm = s.ymm) : Keeps s u where
  gpr r hr := hgpr r (Reg.volatile.ne hd (.inl hr))
  rsp := hgpr .rsp (Reg.volatile.ne hd (.inr rfl))
  xmm j _ := by simp only [State.xmm, hymm]

theorem Keeps.writeVector (hi : i.val < 6) (hgpr : u.gpr = s.gpr)
    (hxmm : ∀ j, j ≠ i → u.xmm j = s.xmm j) : Keeps s u where
  gpr r _ := by rw [hgpr]
  rsp := by rw [hgpr]
  xmm j hj := hxmm j (by rintro rfl; omega)

theorem Keeps.writeElse (hgpr : u.gpr = s.gpr) (hxmm : ∀ j, u.xmm j = s.xmm j) : Keeps s u where
  gpr r _ := by rw [hgpr]
  rsp := by rw [hgpr]
  xmm j _ := hxmm j

end Writes

/-- The integer register that an instruction writes, if it writes just one. -/
def Instr.dst : Instr L → Option Reg
  | .mov d _ | .mov32 d _ | .mov8 d _ | .movzx16 d _ | .movzx8 d _ | .add d _ | .add32 d _
  | .add16 d _ | .adc d _ | .adc32 d _ | .adc16 d _ | .sub d _ | .xor d _ | .xor32 d _ | .not32 d
  | .not16 d | .inc d | .dec d | .shl32 d _ | .shr d _ | .shr32 d _ | .crc32q d _ | .crc32b d _ => some d
  | _ => none

/-- The vector register that an instruction writes. -/
def Instr.vectorDst : Instr L → Option (Fin 16)
  | .vpxor i | .pxor i | .xorpd i | .vmovdqu i _ | .movsdLoad i _ | .movsd i _ | .addsd i _ | .subsd i _
  | .mulsd i _ | .mulsdConst i _ | .divsd i _ | .minsd i _ | .maxsd i _ | .sqrtsd i _ | .cvtsi2sd i _
  | .andpdConst i _ => some i
  | _ => none

/-- The instruction writes volatile registers only. -/
def Instr.volatile : Instr L → Bool
  | .push _ | .pop _ | .cpuid => false
  | i => i.dst.all Reg.volatile && i.vectorDst.all fun j => decide (j.val < 6)

/-- What every outcome of a routine that started in `s` owes its caller. -/
def Outcome.Frames (s : State) : Outcome L → Prop
  | .next u => Keeps s u
  | .jump _ u => Keeps s u
  | .ret t => GivesBack s t
  | .fault => True

section Instructions
variable (cpu : Cpu) (s : State)

@[simp] theorem xmm_setYmm_of_ne {i j : Fin 16} {v : BitVec 256} (h : j ≠ i) :
    (s.setYmm i v).xmm j = s.xmm j := by simp [State.xmm, h]

theorem xmm_setLane_of_ne {i j : Fin 16} {v : Word} (h : j ≠ i) : (s.setLane i v).xmm j = s.xmm j :=
  xmm_setYmm_of_ne s h

theorem exec_frames (i : Instr L) (h : i.volatile = true) : (exec cpu s i).Frames s := by
  cases i
  case push | pop | cpuid => cases h
  case jcc c l =>
    simp only [exec]
    cases s.condition c <;> exact Keeps.refl s
  case jmp => exact Keeps.refl s
  case ret =>
    refine ⟨fun r hr => ?_, by simp, fun j _ => rfl⟩
    have hne : r ≠ .rsp := by rintro rfl; revert hr; decide
    simp [hne]
  case vmovntdq | movntdq =>
    simp only [exec]
    split
    · exact Keeps.writeElse rfl fun _ => rfl
    · trivial
  case vzeroupper => exact Keeps.writeElse rfl fun j => by simp [State.xmm]
  case store8 | cmp | test | clc | bt32 | sfence | movsdStore => exact Keeps.writeElse rfl fun _ => rfl
  case vpxor | pxor | xorpd | vmovdqu | movsdLoad | movsd | addsd | subsd | mulsd | mulsdConst | divsd
      | minsd | maxsd | sqrtsd | cvtsi2sd | andpdConst =>
    simp only [Instr.volatile, Instr.dst, Instr.vectorDst, Option.all_none, Option.all_some,
      Bool.true_and, decide_eq_true_eq] at h
    exact Keeps.writeVector h rfl fun j hj => xmm_setYmm_of_ne s hj
  all_goals
    simp only [Instr.volatile, Instr.dst, Instr.vectorDst, Option.all_none, Option.all_some,
      Bool.and_true] at h
    exact Keeps.write h (fun r hr => if_neg hr) rfl

theorem runBlock_frames (is : List (Instr L)) (h : ∀ i ∈ is, i.volatile = true) :
    (runBlock cpu s is).Frames s := by
  induction is generalizing s with
  | nil => exact Keeps.refl s
  | cons i is ih =>
    have hi := exec_frames cpu s i (h i List.mem_cons_self)
    simp only [runBlock]
    cases ho : exec cpu s i with
    | next u =>
      have hkeep : Keeps s u := by simpa [ho, Outcome.Frames] using hi
      have hrest := ih u (fun j hj => h j (List.mem_cons_of_mem _ hj))
      simp only
      cases hr : runBlock cpu u is with
      | next v => exact hkeep.trans (by simpa [hr, Outcome.Frames] using hrest)
      | jump l v => exact hkeep.trans (by simpa [hr, Outcome.Frames] using hrest)
      | ret t => exact hkeep.givesBack (by simpa [hr, Outcome.Frames] using hrest)
      | fault => trivial
    | jump l u => simpa [ho] using hi
    | ret t => simpa [ho] using hi
    | fault => trivial

end Instructions

namespace Routine
variable (r : Routine L) (cpu : Cpu)

def Volatile : Prop := ∀ l, ∀ i ∈ r.code l, i.volatile = true

/-- Every return of a routine with a volatile text follows the convention. -/
theorem Volatile.givesBack {r : Routine L} (h : r.Volatile) {s t : State} (ht : r.Returns cpu s t) :
    GivesBack s t := by
  obtain ⟨n, hn⟩ := ht
  refine r.run_invariant cpu (P := Keeps s) (Q := GivesBack s) (fun l u hu => ?_) n r.entry s t
    (Keeps.refl s) hn
  have hblock := runBlock_frames cpu u (r.code l) (h l)
  cases ho : runBlock cpu u (r.code l) with
  | next v => exact hu.trans (by simpa [ho, Outcome.Frames] using hblock)
  | jump l' v => exact hu.trans (by simpa [ho, Outcome.Frames] using hblock)
  | ret v => exact hu.givesBack (by simpa [ho, Outcome.Frames] using hblock)
  | fault => trivial

end Routine

end Disping.Machine
