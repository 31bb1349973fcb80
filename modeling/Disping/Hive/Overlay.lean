import Mathlib.Data.List.Induction
import Mathlib.Logic.Function.Basic

/-! # Bindings laid over a store -/
namespace Disping.Hive

variable {κ α : Type*} [DecidableEq κ]

/-- The store after the bindings, the last one of a key in force. -/
def overlay (f : κ → Option α) (ws : List (κ × α)) : κ → Option α :=
  ws.foldl (fun g w => Function.update g w.1 (some w.2)) f

/-- What the last binding of a key gives it. -/
def lastBinding (ws : List (κ × α)) (k : κ) : Option α :=
  ws.foldl (fun acc w => if w.1 = k then some w.2 else acc) none

theorem lastBinding_concat (ws : List (κ × α)) (w : κ × α) (k : κ) :
    lastBinding (ws ++ [w]) k = if w.1 = k then some w.2 else lastBinding ws k := by
  simp [lastBinding]

theorem overlay_apply (f : κ → Option α) (ws : List (κ × α)) (k : κ) :
    overlay f ws k = (lastBinding ws k).or (f k) := by
  induction ws using List.reverseRecOn with
  | nil => simp [overlay, lastBinding]
  | append_singleton ws w ih =>
    rw [lastBinding_concat]
    simp only [overlay, List.foldl_append, List.foldl_cons, List.foldl_nil] at ih ⊢
    by_cases hk : w.1 = k
    · simp [hk]
    · rw [Function.update_of_ne (Ne.symm hk), ih, if_neg hk]

theorem mem_of_lastBinding {ws : List (κ × α)} {k : κ} {a : α} (h : lastBinding ws k = some a) :
    (k, a) ∈ ws := by
  induction ws using List.reverseRecOn with
  | nil => simp [lastBinding] at h
  | append_singleton ws w ih =>
    rw [lastBinding_concat] at h
    split at h
    · rename_i hk
      cases h
      simp [← hk]
    · exact List.mem_append_left _ (ih h)

theorem exists_lastBinding {ws : List (κ × α)} {w : κ × α} (h : w ∈ ws) :
    ∃ a, lastBinding ws w.1 = some a := by
  induction ws using List.reverseRecOn with
  | nil => simp at h
  | append_singleton ws x ih =>
    rw [lastBinding_concat]
    split
    · exact ⟨_, rfl⟩
    · rename_i hne
      rcases List.mem_append.mp h with hmem | hmem
      · exact ih hmem
      · exact absurd (by simpa using hmem) fun heq : w = x => hne (by rw [heq])

end Disping.Hive
