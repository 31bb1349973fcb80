import Disping.Machine.Rules

/-! # Runs on a processor without some extension

exec gives an instruction its effect on every processor. One that has not the instruction's extension raises
an invalid opcode instead. Where it has the extensions of a routine's text nothing differs, and what returns
on it returns the same in exec.
-/
namespace Disping.Machine
variable {L : Type}

inductive Extension
  | sse42 | avx | avx2
deriving DecidableEq, Repr

/-- Bits 20 and 28 of ecx in leaf 1, and bit 5 of ebx in leaf 7. -/
def Cpu.has (cpu : Cpu) : Extension → Bool
  | .sse42 => (cpu.cpuid 1 0).ecx.getLsbD 20
  | .avx => (cpu.cpuid 1 0).ecx.getLsbD 28
  | .avx2 => cpu.avx2

/-- What an instruction needs beyond SSE2, which every x86-64 processor has. -/
def Instr.extension : Instr L → Option Extension
  | .crc32q .. | .crc32b .. => some .sse42
  | .vmovdqu .. | .vmovntdq .. | .vzeroupper => some .avx
  | .vpxor _ => some .avx2
  | _ => none

def Instr.supported (cpu : Cpu) (i : Instr L) : Bool := i.extension.all cpu.has

section Blocks
variable (cpu : Cpu) (s : State)

def execOn (i : Instr L) : Outcome L := if i.supported cpu then exec cpu s i else .fault

def runBlockOn : State → List (Instr L) → Outcome L
  | s, [] => .next s
  | s, i :: rest =>
    match execOn cpu s i with
    | .next s' => runBlockOn s' rest
    | o => o

variable {cpu}

theorem execOn_supported {i : Instr L} (h : i.supported cpu = true) : execOn cpu s i = exec cpu s i :=
  if_pos h

theorem execOn_unsupported {i : Instr L} (h : i.supported cpu = false) : execOn cpu s i = .fault :=
  if_neg (Bool.eq_false_iff.mp h)

theorem runBlockOn_supported {is : List (Instr L)} (h : ∀ i ∈ is, i.supported cpu = true) :
    runBlockOn cpu s is = runBlock cpu s is := by
  induction is generalizing s with
  | nil => rfl
  | cons i is ih =>
    obtain ⟨hi, hrest⟩ := List.forall_mem_cons.mp h
    rw [runBlockOn, runBlock, execOn_supported s hi]
    cases exec cpu s i with
    | next s' => exact ih s' hrest
    | jump => rfl
    | ret => rfl
    | fault => rfl

/-- A block that does not meet the invalid opcode ends as in exec. -/
theorem runBlockOn_cases (is : List (Instr L)) :
    runBlockOn cpu s is = .fault ∨ runBlockOn cpu s is = runBlock cpu s is := by
  induction is generalizing s with
  | nil => exact .inr rfl
  | cons i is ih =>
    cases hi : i.supported cpu with
    | false =>
      rw [runBlockOn, execOn_unsupported s hi]
      exact .inl rfl
    | true =>
      rw [runBlockOn, runBlock, execOn_supported s hi]
      cases exec cpu s i with
      | next s' => exact ih s'
      | jump => exact .inr rfl
      | ret => exact .inr rfl
      | fault => exact .inr rfl

end Blocks

/-- A block that does not return, and leaves control at the given labels only. -/
def Outcome.Stays (T : L → Prop) (next : Option L) : Outcome L → Prop
  | .next _ => ∀ l, next = some l → T l
  | .jump l _ => T l
  | .ret _ => False
  | .fault => True

namespace Routine
variable (r : Routine L) (cpu : Cpu)

def runOn : ℕ → L → State → Option State
  | 0, _, _ => none
  | n + 1, l, s =>
    match runBlockOn cpu s (r.code l) with
    | .next s' =>
      match r.fall l with
      | some l' => runOn n l' s'
      | none => none
    | .jump l' s' => runOn n l' s'
    | .ret s' => some s'
    | .fault => none

def ReturnsOn (s t : State) : Prop := ∃ n, r.runOn cpu n r.entry s = some t

/-- The extensions of a routine's text. -/
def Needs (es : List Extension) : Prop := ∀ l, ∀ i ∈ r.code l, ∀ e ∈ i.extension, e ∈ es

variable {r cpu}

theorem Needs.supported {es : List Extension} (h : r.Needs es) (hes : ∀ e ∈ es, cpu.has e = true) (l : L) :
    ∀ i ∈ r.code l, i.supported cpu = true := by
  intro i hi
  rw [Instr.supported, Option.all_eq_true]
  exact fun e he => hes e (h l i hi e he)

theorem Needs.runOn_eq {es : List Extension} (h : r.Needs es) (hes : ∀ e ∈ es, cpu.has e = true) (n : ℕ)
    (l : L) (s : State) : r.runOn cpu n l s = r.run cpu n l s := by
  induction n generalizing l s with
  | zero => rfl
  | succ n ih =>
    rw [runOn, run, runBlockOn_supported s (h.supported hes l)]
    cases runBlock cpu s (r.code l) with
    | next s' =>
      cases r.fall l with
      | some l' => exact ih l' s'
      | none => rfl
    | jump l' s' => exact ih l' s'
    | ret => rfl
    | fault => rfl

theorem Needs.returnsOn_iff {es : List Extension} (h : r.Needs es) (hes : ∀ e ∈ es, cpu.has e = true)
    {s t : State} : r.ReturnsOn cpu s t ↔ r.Returns cpu s t :=
  exists_congr fun n => by rw [h.runOn_eq hes]

/-- What returns on the processor is what exec returns. -/
theorem run_of_runOn {n : ℕ} {l : L} {s t : State} (h : r.runOn cpu n l s = some t) :
    r.run cpu n l s = some t := by
  induction n generalizing l s with
  | zero => cases h
  | succ n ih =>
    rw [runOn] at h
    rw [run]
    rcases runBlockOn_cases s (r.code l) with hfault | hsame
    · rw [hfault] at h
      cases h
    rw [hsame] at h
    cases ho : runBlock cpu s (r.code l) with
    | next s' =>
      simp only [ho] at h ⊢
      cases hf : r.fall l with
      | none => simp only [hf, reduceCtorEq] at h
      | some l' =>
        simp only [hf] at h ⊢
        exact ih h
    | jump l' s' =>
      simp only [ho] at h ⊢
      exact ih h
    | ret s' => rwa [ho] at h
    | fault => simp only [ho, reduceCtorEq] at h

/-- Labels that no block leaves, and at which none returns. -/
theorem runOn_eq_none {T : L → Prop} (block : ∀ l s, T l → (runBlockOn cpu s (r.code l)).Stays T (r.fall l))
    (n : ℕ) {l : L} (s : State) (hl : T l) : r.runOn cpu n l s = none := by
  induction n generalizing l s with
  | zero => rfl
  | succ n ih =>
    have hb := block l s hl
    rw [runOn]
    cases ho : runBlockOn cpu s (r.code l) with
    | next s' =>
      rw [ho] at hb
      cases hf : r.fall l with
      | none => rfl
      | some l' => exact ih s' (hb l' hf)
    | jump l' s' =>
      rw [ho] at hb
      exact ih s' hb
    | ret s' =>
      rw [ho] at hb
      exact hb.elim
    | fault => rfl

end Routine

end Disping.Machine
