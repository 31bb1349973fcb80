import Disping.Arithmetic.EndAroundCarry
import Disping.Machine.Memory
import Disping.Machine.Rules
import Mathlib.Algebra.BigOperators.Group.Finset.Basic

/-! # Chains of additions with carry

One carry flag is threaded through a set of accumulators. The tally of the
accumulators and the flag is kept modulo `2^64 - 1` by every addition with
carry, and the flag can only escape from a state in which all accumulators are
full, which a chain that starts with a clear flag never reaches.
-/
namespace Disping.Machine
open Disping.Arithmetic
variable {L : Type}

section Values
variable {w : ℕ} (x y : BitVec w) (c : Bool)

theorem toNat_carryValue :
    (carryValue x y c).toNat + 2 ^ w * (carryOut x y c).toNat = x.toNat + y.toNat + c.toNat := by
  have hx := x.isLt
  have hy := y.isLt
  have hc : c.toNat ≤ 1 := Bool.toNat_le c
  have hpos := Nat.two_pow_pos w
  have hval : (carryValue x y c).toNat = (x.toNat + y.toNat + c.toNat) % 2 ^ w := by
    rw [carryValue, BitVec.toNat_add, BitVec.toNat_add, BitVec.toNat_ofNat, Nat.mod_add_mod,
      Nat.add_mod_mod]
  by_cases h : 2 ^ w ≤ x.toNat + y.toNat + c.toNat
  · have hout : carryOut x y c = true := by simpa [carryOut] using h
    have hsub : (x.toNat + y.toNat + c.toNat) % 2 ^ w = x.toNat + y.toNat + c.toNat - 2 ^ w := by
      rw [Nat.mod_eq_sub_mod h, Nat.mod_eq_of_lt (by omega)]
    rw [hval, hout, hsub]
    simp only [Bool.toNat_true]
    omega
  · have hout : carryOut x y c = false := by simpa [carryOut] using h
    rw [hval, hout, Nat.mod_eq_of_lt (Nat.not_le.mp h)]
    simp

/-- Addition followed by the addition of its own carry. -/
def endAround : BitVec w := carryValue (x + y) 0#w (carryOut x y false)

theorem endAround_onesEq : OnesEq w (endAround x y).toNat (x.toNat + y.toNat) := by
  have hx := x.isLt
  have hy := y.isLt
  have h1 := toNat_carryValue x y false
  have h2 := toNat_carryValue (x + y) 0#w (carryOut x y false)
  have hv := (x + y).isLt
  simp only [carryValue_false, Bool.toNat_false, BitVec.toNat_ofNat, Nat.zero_mod, Nat.add_zero] at h1 h2
  have hzero : (carryOut (x + y) 0#w (carryOut x y false)).toNat = 0 := by
    cases hc : carryOut (x + y) 0#w (carryOut x y false) with
    | false => rfl
    | true =>
      have hc' : (carryOut x y false).toNat ≤ 1 := Bool.toNat_le _
      rw [hc, Bool.toNat_true, Nat.mul_one] at h2
      have hone : (carryOut x y false).toNat = 1 := by omega
      rw [hone, Nat.mul_one] at h1
      omega
  have hfinal : (endAround x y).toNat =
      (x + y).toNat + (carryOut x y false).toNat := by
    rw [hzero] at h2
    simpa [endAround] using h2
  rw [hfinal, ← h1]
  exact (OnesEq.carry w _ _).symm

end Values

/-- Sum of the accumulators and the carry that is still to be added. -/
def tally (accs : Finset Reg) (s : State) : ℕ := ∑ r ∈ accs, (s.gpr r).toNat + s.cf.toNat

def Saturated (accs : Finset Reg) (s : State) : Prop :=
  s.cf = true ∧ ∀ r ∈ accs, (s.gpr r).toNat = 2 ^ 64 - 1

theorem not_saturated_of_clear {accs : Finset Reg} {s : State} (h : s.cf = false) :
    ¬ Saturated accs s := by
  rintro ⟨hcf, _⟩
  exact Bool.false_ne_true (h.symm.trans hcf)

section Chain
variable {accs : Finset Reg} {acc : Reg} (s : State) (y : Word)

/-- The state after `adc acc, y`. -/
def adcState (s : State) (acc : Reg) (y : Word) : State :=
  addition (s.setReg acc) (s.gpr acc) y s.cf

theorem tally_adcState (h : acc ∈ accs) :
    OnesEq 64 (tally accs (adcState s acc y)) (tally accs s + y.toNat) := by
  have hrest : ∑ r ∈ accs.erase acc, ((adcState s acc y).gpr r).toNat =
      ∑ r ∈ accs.erase acc, (s.gpr r).toNat := by
    apply Finset.sum_congr rfl
    intro r hr
    simp [adcState, addition, (Finset.mem_erase.mp hr).1]
  have hacc : (adcState s acc y).gpr acc = carryValue (s.gpr acc) y s.cf := by
    simp [adcState, addition]
  have hcf : (adcState s acc y).cf = carryOut (s.gpr acc) y s.cf := rfl
  have hval := toNat_carryValue (s.gpr acc) y s.cf
  let rest := ∑ r ∈ accs.erase acc, (s.gpr r).toNat
  have hnew : tally accs (adcState s acc y) =
      (carryValue (s.gpr acc) y s.cf).toNat + (carryOut (s.gpr acc) y s.cf).toNat + rest := by
    rw [tally, ← Finset.add_sum_erase accs _ h, hrest, hacc, hcf]
    ring
  have hold : tally accs s + y.toNat =
      (carryValue (s.gpr acc) y s.cf).toNat + 2 ^ 64 * (carryOut (s.gpr acc) y s.cf).toNat + rest := by
    rw [hval, tally, ← Finset.add_sum_erase accs _ h]
    ring
  rw [hnew, hold]
  exact (OnesEq.carry 64 _ _).symm.add_right rest

theorem not_saturated_adcState (h : acc ∈ accs) (hs : ¬ Saturated accs s) :
    ¬ Saturated accs (adcState s acc y) := by
  rintro ⟨hcf, hall⟩
  have hval := toNat_carryValue (s.gpr acc) y s.cf
  have hacc : (carryValue (s.gpr acc) y s.cf).toNat = 2 ^ 64 - 1 := by
    simpa [adcState, addition] using hall acc h
  have hout : carryOut (s.gpr acc) y s.cf = true := hcf
  rw [hacc, hout] at hval
  have hx := (s.gpr acc).isLt
  have hy := y.isLt
  have hc : s.cf.toNat ≤ 1 := Bool.toNat_le _
  simp only [Bool.toNat_true] at hval
  -- both operands and the incoming carry were already full
  refine hs ⟨?_, fun r hr => ?_⟩
  · cases hcf' : s.cf with
    | true => rfl
    | false =>
      simp only [hcf', Bool.toNat_false] at hval
      omega
  · by_cases hra : r = acc
    · subst hra
      omega
    · simpa [adcState, addition, hra] using hall r hr

/-- A flag that survives the addition of zero left an empty accumulator behind. -/
theorem carry_adcState_zero (hcf : (adcState s acc 0#64).cf = true) :
    s.cf = true ∧ (s.gpr acc).toNat = 2 ^ 64 - 1 := by
  have hval := toNat_carryValue (s.gpr acc) 0#64 s.cf
  have hout : carryOut (s.gpr acc) 0#64 s.cf = true := hcf
  have hx := (s.gpr acc).isLt
  have hc : s.cf.toNat ≤ 1 := Bool.toNat_le _
  rw [hout] at hval
  simp only [Bool.toNat_true, BitVec.toNat_ofNat, Nat.zero_mod, Nat.add_zero] at hval
  refine ⟨?_, by omega⟩
  cases hcf' : s.cf with
  | true => rfl
  | false =>
    simp only [hcf', Bool.toNat_false] at hval
    omega

/-- Adding zero to a single accumulator absorbs the flag. -/
theorem adcState_zero_clear (hs : ¬ Saturated {acc} s) : (adcState s acc 0#64).cf = false := by
  cases h : (adcState s acc 0#64).cf with
  | false => rfl
  | true =>
    obtain ⟨hcf, hacc⟩ := carry_adcState_zero s h
    exact absurd ⟨hcf, by simpa using hacc⟩ hs

/-- Adding zero to both accumulators in turn absorbs the flag. -/
theorem adcState_zero_zero_clear {acc' : Reg} (hne : acc ≠ acc') (hs : ¬ Saturated {acc, acc'} s) :
    (adcState (adcState s acc 0#64) acc' 0#64).cf = false := by
  cases h : (adcState (adcState s acc 0#64) acc' 0#64).cf with
  | false => rfl
  | true =>
    obtain ⟨hcf, hacc'⟩ := carry_adcState_zero _ h
    obtain ⟨hcf0, hacc⟩ := carry_adcState_zero s hcf
    have hacc'' : (s.gpr acc').toNat = 2 ^ 64 - 1 := by
      simpa [adcState, addition, hne.symm] using hacc'
    refine absurd ⟨hcf0, ?_⟩ hs
    simp [hacc, hacc'']

end Chain

/-- Load a word at an offset from `base` and add it with carry, for each entry. -/
def adcChain (base : Reg) (entries : List (Reg × Reg × Word)) : List (Instr L) :=
  entries.flatMap fun e => [.mov e.2.1 (.mem (.off base e.2.2)), .adc e.1 (.reg e.2.1)]

/-- The words that a chain adds. -/
def chainSum (m : Memory) (a : Word) (entries : List (Reg × Reg × Word)) : ℕ :=
  (entries.map fun e => loadNat m (a + e.2.2) 8).sum

/-- What a chain leaves alone: memory, streaming stores and all but its own registers. -/
structure ChainFrame (touched : List Reg) (s t : State) : Prop where
  gpr : ∀ r, r ∉ touched → t.gpr r = s.gpr r
  mem : t.mem = s.mem

theorem ChainFrame.trans {touched : List Reg} {s t u : State} (h : ChainFrame touched s t)
    (h' : ChainFrame touched t u) : ChainFrame touched s u :=
  ⟨fun r hr => (h'.gpr r hr).trans (h.gpr r hr), h'.mem.trans h.mem⟩

/-- A chain of any length adds its words to the tally and never fills all accumulators. -/
theorem runBlock_adcChain (cpu : Cpu) {accs : Finset Reg} {touched : List Reg} {base : Reg}
    (hbase : base ∉ touched) (entries : List (Reg × Reg × Word))
    (hentries : ∀ e ∈ entries, e.1 ∈ accs ∧ e.1 ∈ touched ∧ e.2.1 ∉ accs ∧ e.2.1 ∈ touched)
    (s : State) (hs : ¬ Saturated accs s) :
    ∃ t, runBlock cpu s (adcChain (L := L) base entries) = .next t ∧
      OnesEq 64 (tally accs t) (tally accs s + chainSum s.mem (s.gpr base) entries) ∧
      ¬ Saturated accs t ∧ ChainFrame touched s t := by
  induction entries generalizing s with
  | nil => exact ⟨s, rfl, by simpa [chainSum] using OnesEq.refl 64 (tally accs s), hs, fun _ _ => rfl, rfl⟩
  | cons e rest ih =>
    obtain ⟨hacc, hacct, htmp, htmpt⟩ := hentries e List.mem_cons_self
    let word := load 64 s.mem (s.gpr base + e.2.2)
    let loaded := s.setReg e.2.1 word
    have hne : e.1 ≠ e.2.1 := fun h => htmp (h ▸ hacc)
    have hsame : ∀ r ∈ accs, loaded.gpr r = s.gpr r := by
      intro r hr
      have hr' : r ≠ e.2.1 := fun h => htmp (h ▸ hr)
      simp [loaded, hr']
    have hloaded : ¬ Saturated accs loaded := by
      rintro ⟨hcf, hall⟩
      exact hs ⟨hcf, fun r hr => by rw [← hsame r hr]; exact hall r hr⟩
    have htally : tally accs loaded = tally accs s := by
      unfold tally
      rw [Finset.sum_congr rfl fun r hr => by rw [hsame r hr]]
      rfl
    have hword : word.toNat = loadNat s.mem (s.gpr base + e.2.2) 8 := toNat_load s.mem _ 8
    obtain ⟨t, hrun, hsum, hsat, hframe⟩ := ih (fun e' he' => hentries e' (List.mem_cons_of_mem _ he'))
      (adcState loaded e.1 word) (not_saturated_adcState loaded word hacc hloaded)
    have hstep : ChainFrame touched s (adcState loaded e.1 word) := by
      refine ⟨fun r hr => ?_, rfl⟩
      have h1 : r ≠ e.1 := fun h => hr (h ▸ hacct)
      have h2 : r ≠ e.2.1 := fun h => hr (h ▸ htmpt)
      simp [adcState, addition, loaded, h1, h2]
    refine ⟨t, ?_, ?_, hsat, hstep.trans hframe⟩
    · rw [adcChain, List.flatMap_cons, List.cons_append, runBlock_cons_next cpu s (t := loaded) (by
          simp [exec, State.src, loaded, word])]
      rw [List.cons_append, runBlock_cons_next cpu loaded (t := adcState loaded e.1 word) (by
          simp [exec, State.src, adcState, loaded])]
      exact hrun
    · have hmem : (adcState loaded e.1 word).mem = s.mem := rfl
      have hb : (adcState loaded e.1 word).gpr base = s.gpr base := hstep.gpr base hbase
      rw [hmem, hb] at hsum
      have hfirst := tally_adcState loaded word hacc
      rw [htally, hword] at hfirst
      refine hsum.trans ?_
      have hcons : chainSum s.mem (s.gpr base) (e :: rest) =
          loadNat s.mem (s.gpr base + e.2.2) 8 + chainSum s.mem (s.gpr base) rest := by
        simp [chainSum]
      rw [hcons, ← Nat.add_assoc]
      exact hfirst.add_right _

end Disping.Machine
