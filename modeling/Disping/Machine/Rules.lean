import Disping.Machine.Instruction

/-! # Rules for runs of routines

A routine is verified by a table that gives an assertion at each label and a
measure that falls at every transfer of control; the rule below turns one
obligation for each block into a terminating, fault-free run. The frame rule
needs no table: it inspects the instructions only.
-/
namespace Disping.Machine
variable {L : Type}

section Blocks
variable (cpu : Cpu) (s : State)

@[simp] theorem runBlock_nil : runBlock cpu s ([] : List (Instr L)) = .next s := rfl

theorem runBlock_cons_next {i : Instr L} {rest : List (Instr L)} {t : State}
    (h : exec cpu s i = .next t) : runBlock cpu s (i :: rest) = runBlock cpu t rest := by
  simp only [runBlock, h]

theorem runBlock_append {is rest : List (Instr L)} {t : State}
    (h : runBlock cpu s is = .next t) : runBlock cpu s (is ++ rest) = runBlock cpu t rest := by
  induction is generalizing s with
  | nil =>
    cases h
    rfl
  | cons i is ih =>
    simp only [runBlock, List.cons_append] at h ⊢
    cases he : exec cpu s i with
    | next s' =>
      simp only [he] at h
      exact ih s' h
    | jump l s' => simp [he] at h
    | ret s' => simp [he] at h
    | fault => simp [he] at h

attribute [local simp] runBlock exec State.condition State.src

/-- A loop guard that finds too little left and leaves. -/
theorem runBlock_guard_below {r : Reg} {n : Word} {below : L} {rest : List (Instr L)}
    (h : s.gpr r < n) : runBlock cpu s (.cmp r (.imm n) :: .jcc .jb below :: rest) =
      .jump below (s.setFlags true (s.gpr r == n)) := by
  simp [h]

/-- A loop guard that enters the block, with a clear carry flag. -/
theorem runBlock_guard_enter {r : Reg} {n : Word} {below : L} {rest : List (Instr L)}
    (h : ¬ s.gpr r < n) : runBlock cpu s (.cmp r (.imm n) :: .jcc .jb below :: rest) =
      runBlock cpu (s.setFlags false (s.gpr r == n)) rest := by
  simp [h]

/-- A register tested against itself and found zero. -/
theorem runBlock_test_zero {r : Reg} {l : L} {rest : List (Instr L)} (h : s.gpr r = 0#64) :
    runBlock cpu s (.test r (.reg r) :: .jcc .jz l :: rest) = .jump l (s.setFlags false true) := by
  simp [h]

theorem runBlock_test_nonzero {r : Reg} {l : L} {rest : List (Instr L)} (h : s.gpr r ≠ 0#64) :
    runBlock cpu s (.test r (.reg r) :: .jcc .jz l :: rest) =
      runBlock cpu (s.setFlags false false) rest := by
  have hz : (s.gpr r == 0#64) = false := beq_eq_false_iff_ne.mpr h
  simp [hz]

/-- A register tested against a mask. -/
theorem runBlock_mask_zero {r : Reg} {v : Word} {l : L} {rest : List (Instr L)}
    (h : s.gpr r &&& v = 0#64) :
    runBlock cpu s (.test r (.imm v) :: .jcc .jz l :: rest) = .jump l (s.setFlags false true) := by
  simp [h]

theorem runBlock_mask_nonzero {r : Reg} {v : Word} {l : L} {rest : List (Instr L)}
    (h : s.gpr r &&& v ≠ 0#64) :
    runBlock cpu s (.test r (.imm v) :: .jcc .jz l :: rest) =
      runBlock cpu (s.setFlags false false) rest := by
  have hz : (s.gpr r &&& v == 0#64) = false := beq_eq_false_iff_ne.mpr h
  simp [hz]

end Blocks

/-- Where a block may leave control: at a label whose assertion holds, or returned. -/
def Outcome.Lands (T : L → State → Prop) (Q : State → Prop) (next : Option L) : Outcome L → Prop
  | .next s => ∃ l, next = some l ∧ T l s
  | .jump l s => T l s
  | .ret s => Q s
  | .fault => False

/-- A conditional jump that closes its block. -/
theorem lands_jcc {T : L → State → Prop} {Q : State → Prop} {next : Option L} {l l' : L} {c : Cond}
    {cpu : Cpu} {s : State} (hnext : next = some l') (taken : T l s) (through : T l' s) :
    (runBlock cpu s [.jcc c l]).Lands T Q next := by
  simp only [runBlock, exec]
  cases s.condition c with
  | true => exact taken
  | false => exact ⟨l', hnext, through⟩

namespace Routine
variable (r : Routine L) (cpu : Cpu)

/-- Total correctness from one obligation for each block. -/
theorem run_of_table {T : L → State → Prop} {measure : L → State → ℕ} {Q : State → Prop}
    (block : ∀ l s, T l s → (runBlock cpu s (r.code l)).Lands
      (fun l' s' => T l' s' ∧ measure l' s' < measure l s) Q (r.fall l)) :
    ∀ (n : ℕ) (l : L) (s : State), T l s → measure l s < n →
      ∃ t, r.run cpu n l s = some t ∧ Q t := by
  intro n
  induction n with
  | zero =>
    intro l s _ hn
    omega
  | succ n ih =>
    intro l s hT hn
    have hb := block l s hT
    simp only [run]
    cases ho : runBlock cpu s (r.code l) with
    | next s' =>
      simp only [ho, Outcome.Lands] at hb
      obtain ⟨l', hl, hT', hm⟩ := hb
      simpa only [hl] using ih l' s' hT' (by omega)
    | jump l' s' =>
      simp only [ho, Outcome.Lands] at hb
      exact ih l' s' hb.1 (by omega)
    | ret s' =>
      simp only [ho, Outcome.Lands] at hb
      exact ⟨s', rfl, hb⟩
    | fault => simp only [ho, Outcome.Lands] at hb

/-- A property that every block keeps holds of whatever a run returns. -/
theorem run_invariant {P Q : State → Prop}
    (block : ∀ l s, P s → match runBlock cpu s (r.code l) with
      | .next s' => P s'
      | .jump _ s' => P s'
      | .ret s' => Q s'
      | .fault => True) :
    ∀ (n : ℕ) (l : L) (s t : State), P s → r.run cpu n l s = some t → Q t := by
  intro n
  induction n with
  | zero =>
    intro l s t _ h
    cases h
  | succ n ih =>
    intro l s t hP h
    have hb := block l s hP
    simp only [run] at h
    cases ho : runBlock cpu s (r.code l) with
    | next s' =>
      simp only [ho] at h hb
      cases hf : r.fall l with
      | none => simp only [hf, reduceCtorEq] at h
      | some l' =>
        simp only [hf] at h
        exact ih l' s' t hb h
    | jump l' s' =>
      simp only [ho] at h hb
      exact ih l' s' t hb h
    | ret s' =>
      simp only [ho] at h hb
      cases h
      exact hb
    | fault => simp only [ho, reduceCtorEq] at h

theorem run_mono {n m : ℕ} (hnm : n ≤ m) {l : L} {s t : State}
    (h : r.run cpu n l s = some t) : r.run cpu m l s = some t := by
  induction n generalizing m l s with
  | zero => cases h
  | succ n ih =>
    obtain ⟨m, rfl⟩ : ∃ k, m = k + 1 := ⟨m - 1, by omega⟩
    simp only [run] at h ⊢
    cases ho : runBlock cpu s (r.code l) with
    | next s' =>
      simp only [ho] at h ⊢
      cases hf : r.fall l with
      | none => simp only [hf, reduceCtorEq] at h
      | some l' =>
        simp only [hf] at h ⊢
        exact ih (by omega) h
    | jump l' s' =>
      simp only [ho] at h ⊢
      exact ih (by omega) h
    | ret s' =>
      simp only [ho] at h ⊢
      exact h
    | fault => simp only [ho, reduceCtorEq] at h

/-- Runs are deterministic, whatever fuel they are given. -/
theorem returns_unique {s t u : State} (ht : r.Returns cpu s t) (hu : r.Returns cpu s u) : t = u := by
  obtain ⟨n, hn⟩ := ht
  obtain ⟨m, hm⟩ := hu
  have hn' := r.run_mono cpu (Nat.le_max_left n m) hn
  have hm' := r.run_mono cpu (Nat.le_max_right n m) hm
  exact Option.some.inj (hn'.symm.trans hm')

end Routine

end Disping.Machine
