import Mathlib.Tactic.Common

/-! # Runs of a labelled step function

A run takes a list of labels from a state, and stops where a step is disabled. A
run whose steps all meet a side condition keeps what such steps keep; a run with
a step that does not may fall into a trap and stays there.
-/
namespace Disping.Transition
variable {S A : Type*} (step : S → A → Option S)

def run : S → List A → Option S
  | s, [] => some s
  | s, a :: as => (step s a).bind fun t => run t as

/-- Every step of the run meets the condition in the state it is taken from. -/
def Along (ok : S → A → Prop) : S → List A → Prop
  | _, [] => True
  | s, a :: as => ok s a ∧ ∀ t, step s a = some t → Along ok t as

variable {step} {ok : S → A → Prop} {I J : S → Prop} {s t : S} {as : List A}

theorem run_cons {a : A} (h : run step s (a :: as) = some t) :
    ∃ u, step s a = some u ∧ run step u as = some t := Option.bind_eq_some_iff.mp h

theorem run_append {bs : List A} (h : run step s as = some t) :
    run step s (as ++ bs) = run step t bs := by
  induction as generalizing s with
  | nil =>
    cases h
    rfl
  | cons a as ih =>
    obtain ⟨u, hu, hrun⟩ := run_cons h
    rw [List.cons_append, run, hu]
    exact ih hrun

/-- The state in which a run goes on. -/
theorem run_split {bs : List A} (h : run step s (as ++ bs) = some t) :
    ∃ u, run step s as = some u ∧ run step u bs = some t := by
  induction as generalizing s with
  | nil => exact ⟨s, rfl, h⟩
  | cons a as ih =>
    obtain ⟨s', hs', hrun⟩ := run_cons h
    obtain ⟨u, hu, hrest⟩ := ih hrun
    refine ⟨u, ?_, hrest⟩
    rw [run, hs']
    exact hu

theorem along_true : Along step (fun _ _ => True) s as := by
  induction as generalizing s with
  | nil => trivial
  | cons a as ih => exact ⟨trivial, fun _ _ => ih⟩

theorem along_mono {ok' : S → A → Prop} (hok : ∀ s a, ok s a → ok' s a) (h : Along step ok s as) :
    Along step ok' s as := by
  induction as generalizing s with
  | nil => trivial
  | cons a as ih => exact ⟨hok s a h.1, fun t ht => ih (h.2 t ht)⟩

/-- A condition on the labels alone. -/
theorem along_of_forall {P : A → Prop} (h : ∀ a ∈ as, P a) : Along step (fun _ a => P a) s as := by
  induction as generalizing s with
  | nil => trivial
  | cons a as ih => exact ⟨h a (by simp), fun _ _ => ih fun b hb => h b (by simp [hb])⟩

/-- What a step keeps under the condition, a run keeps along it. -/
theorem run_invariant (keep : ∀ s a t, I s → ok s a → step s a = some t → I t)
    (hok : Along step ok s as) (hs : I s) (h : run step s as = some t) : I t := by
  induction as generalizing s with
  | nil =>
    cases h
    exact hs
  | cons a as ih =>
    obtain ⟨u, hu, hrun⟩ := run_cons h
    exact ih (hok.2 u hu) (keep s a u hs hok.1 hu) hrun

/-- A rank that every step lowers bounds the length of a run. -/
theorem run_rank {rank : S → ℕ}
    (lower : ∀ s a t, I s → ok s a → step s a = some t → I t ∧ rank t < rank s)
    (hok : Along step ok s as) (hs : I s) (h : run step s as = some t) : I t ∧ as.length + rank t ≤ rank s := by
  induction as generalizing s with
  | nil =>
    cases h
    exact ⟨hs, Nat.le_of_eq (Nat.zero_add _)⟩
  | cons a as ih =>
    obtain ⟨u, hu, hrun⟩ := run_cons h
    obtain ⟨hkept, hlower⟩ := lower s a u hs hok.1 hu
    obtain ⟨hend, hbound⟩ := ih (hok.2 u hu) hkept hrun
    refine ⟨hend, ?_⟩
    rw [List.length_cons]
    omega

/-- A simulation in which steps may be hidden carries a run over. -/
theorem run_simulation {T B : Type*} {step' : T → B → Option T} {R : S → T → Prop} {shown : A → Option B}
    (visible : ∀ s a b t u, shown a = some b → R s u → step s a = some t → ∃ v, step' u b = some v ∧ R t v)
    (hidden : ∀ s a t u, shown a = none → R s u → step s a = some t → R t u)
    {u : T} (hs : R s u) (h : run step s as = some t) :
    ∃ v, run step' u (as.filterMap shown) = some v ∧ R t v := by
  induction as generalizing s u with
  | nil =>
    cases h
    exact ⟨u, rfl, hs⟩
  | cons a as ih =>
    obtain ⟨s', hs', hrun⟩ := run_cons h
    cases hshown : shown a with
    | none =>
      rw [List.filterMap_cons_none hshown]
      exact ih (hidden s a s' u hshown hs hs') hrun
    | some b =>
      obtain ⟨u', hu', hR⟩ := visible s a b s' u hshown hs hs'
      obtain ⟨v, hv, hend⟩ := ih hR hrun
      refine ⟨v, ?_, hend⟩
      rw [List.filterMap_cons_some hshown, run, hu']
      exact hv

section History
variable {H : List A → S → Prop}
  (keep : ∀ before s a t, H before s → step s a = some t → H (before ++ [a]) t)
include keep

theorem run_history_append {before : List A} (hs : H before s) (h : run step s as = some t) :
    H (before ++ as) t := by
  induction as generalizing s before with
  | nil =>
    cases h
    rwa [List.append_nil]
  | cons a as ih =>
    obtain ⟨u, hu, hrun⟩ := run_cons h
    have hnext := ih (keep before s a u hs hu) hrun
    rwa [List.append_assoc, List.singleton_append] at hnext

/-- What a step keeps of the labels taken and the state, a run keeps. -/
theorem run_history (hs : H [] s) (h : run step s as = some t) : H as t :=
  run_history_append keep hs h

end History

/-- A run leaves the invariant by a step against the condition only, and then is trapped. -/
theorem run_trap (keep : ∀ s a t, I s → ok s a → step s a = some t → I t)
    (fall : ∀ s a t, I s → ¬ ok s a → step s a = some t → J t)
    (trap : ∀ s a t, J s → step s a = some t → J t)
    (hs : I s) (h : run step s as = some t) : Along step ok s as ∨ J t := by
  induction as generalizing s with
  | nil => exact .inl trivial
  | cons a as ih =>
    obtain ⟨u, hu, hrun⟩ := run_cons h
    by_cases hok : ok s a
    · rcases ih (keep s a u hs hok hu) hrun with hrest | hJ
      · refine .inl ⟨hok, fun v hv => ?_⟩
        rw [hu] at hv
        cases hv
        exact hrest
      · exact .inr hJ
    · exact .inr (run_invariant (fun s a t hJ _ => trap s a t hJ) along_true (fall s a u hs hok hu) hrun)

end Disping.Transition
