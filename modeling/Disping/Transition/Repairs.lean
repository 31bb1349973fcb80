import Mathlib.Logic.Function.Iterate

/-! # Repairs one after the other

A repair acts until its goal is reached. When no later repair spoils the goal of an earlier one,
a sequence of repairs reaches all goals, and done again it changes nothing.
-/
namespace Disping.Transition
variable {σ : Type*}

structure Repair (σ : Type*) where
  act : σ → σ
  goal : σ → Prop

/-- On the states of an invariant: the repair reaches its goal, and then rests. -/
structure Repair.Sound (P : σ → Prop) (f : Repair σ) : Prop where
  keeps : ∀ s, P s → P (f.act s)
  reaches : ∀ s, P s → f.goal (f.act s)
  rests : ∀ s, P s → f.goal s → f.act s = s

/-- The second repair does not spoil the goal of the first. -/
def Repair.SparedBy (P : σ → Prop) (f g : Repair σ) : Prop := ∀ s, P s → f.goal s → f.goal (g.act s)

def repairAll (fs : List (Repair σ)) (s : σ) : σ := fs.foldl (fun s f => f.act s) s

variable {P : σ → Prop} {fs : List (Repair σ)} {f : Repair σ} {s : σ}

theorem repairAll_keeps (hsound : ∀ f ∈ fs, f.Sound P) (hs : P s) : P (repairAll fs s) := by
  induction fs generalizing s with
  | nil => exact hs
  | cons f fs ih =>
    obtain ⟨hf, hrest⟩ := List.forall_mem_cons.mp hsound
    exact ih hrest (hf.keeps s hs)

theorem Repair.goal_repairAll (hsound : ∀ g ∈ fs, g.Sound P) (hspared : ∀ g ∈ fs, f.SparedBy P g)
    (hs : P s) (hgoal : f.goal s) : f.goal (repairAll fs s) := by
  induction fs generalizing s with
  | nil => exact hgoal
  | cons g fs ih =>
    obtain ⟨hg, hrest⟩ := List.forall_mem_cons.mp hsound
    obtain ⟨hspare, hspares⟩ := List.forall_mem_cons.mp hspared
    exact ih hrest hspares (hg.keeps s hs) (hspare s hs hgoal)

/-- All goals are reached. -/
theorem goals_repairAll (hsound : ∀ f ∈ fs, f.Sound P) (hspared : fs.Pairwise (Repair.SparedBy P))
    (hs : P s) : ∀ f ∈ fs, f.goal (repairAll fs s) := by
  induction fs generalizing s with
  | nil => exact fun f hf => absurd hf List.not_mem_nil
  | cons g fs ih =>
    obtain ⟨hg, hrest⟩ := List.forall_mem_cons.mp hsound
    obtain ⟨hspare, hspares⟩ := List.pairwise_cons.mp hspared
    have hnext := hg.keeps s hs
    have hend : repairAll (g :: fs) s = repairAll fs (g.act s) := rfl
    rw [hend]
    exact List.forall_mem_cons.mpr
      ⟨Repair.goal_repairAll hrest hspare hnext (hg.reaches s hs), ih hrest hspares hnext⟩

theorem repairAll_of_goals (hsound : ∀ f ∈ fs, f.Sound P) (hs : P s) (hgoals : ∀ f ∈ fs, f.goal s) :
    repairAll fs s = s := by
  induction fs with
  | nil => rfl
  | cons f fs ih =>
    obtain ⟨hf, hrest⟩ := List.forall_mem_cons.mp hsound
    obtain ⟨hgoal, hgoals⟩ := List.forall_mem_cons.mp hgoals
    have hstays : repairAll (f :: fs) s = repairAll fs s := congrArg (repairAll fs) (hf.rests s hs hgoal)
    rw [hstays]
    exact ih hrest hgoals

/-- Any number of rounds is one. -/
theorem iterate_repairAll (hsound : ∀ f ∈ fs, f.Sound P) (hspared : fs.Pairwise (Repair.SparedBy P))
    (hs : P s) (n : ℕ) : (repairAll fs)^[n + 1] s = repairAll fs s := by
  have hagain : repairAll fs (repairAll fs s) = repairAll fs s :=
    repairAll_of_goals hsound (repairAll_keeps hsound hs) (goals_repairAll hsound hspared hs)
  rw [Function.iterate_succ_apply]
  exact Function.iterate_fixed hagain n

end Disping.Transition
