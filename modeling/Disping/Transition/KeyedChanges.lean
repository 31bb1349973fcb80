import Mathlib.Logic.Function.Basic

/-! # Changes at single keys

A change acts on the value of one key. When acting twice is acting once, a sequence of
keys leaves each key changed or unchanged, whatever its order and its repetitions.
-/
namespace Disping.Transition
variable {K V : Type*} [DecidableEq K] {change : K → V → V} {state : K → V} {k : K} {ks ls : List K}

/-- The change of one key. -/
def changeAt (change : K → V → V) (state : K → V) (k : K) : K → V :=
  Function.update state k (change k (state k))

@[simp] theorem changeAt_self : changeAt change state k k = change k (state k) := Function.update_self ..

theorem changeAt_of_ne {l : K} (h : l ≠ k) : changeAt change state k l = state l := Function.update_of_ne h ..

/-- The changes of all keys of a list. -/
def changeAll (change : K → V → V) (ks : List K) (state : K → V) : K → V := ks.foldl (changeAt change) state

theorem changeAll_of_notMem (h : k ∉ ks) : changeAll change ks state k = state k := by
  induction ks generalizing state with
  | nil => rfl
  | cons l ks ih =>
    rw [List.mem_cons, not_or] at h
    exact (ih h.2).trans (changeAt_of_ne h.1)

section Idempotent
variable (hidem : ∀ k v, change k (change k v) = change k v)
include hidem

theorem changeAll_of_mem (h : k ∈ ks) : changeAll change ks state k = change k (state k) := by
  induction ks generalizing state with
  | nil => exact absurd h List.not_mem_nil
  | cons l ks ih =>
    have hcons : changeAll change (l :: ks) state = changeAll change ks (changeAt change state l) := rfl
    have hhead : change k (changeAt change state l k) = change k (state k) := by
      by_cases hl : k = l
      · rw [hl, changeAt_self, hidem]
      · rw [changeAt_of_ne hl]
    rw [hcons]
    by_cases hmem : k ∈ ks
    · rw [ih hmem, hhead]
    · have hl : k = l := (List.mem_cons.mp h).resolve_right hmem
      rw [changeAll_of_notMem hmem, hl, changeAt_self]

/-- Two lists of the same keys make the same changes. -/
theorem changeAll_congr (h : ∀ k, k ∈ ks ↔ k ∈ ls) : changeAll change ks = changeAll change ls := by
  funext state k
  by_cases hk : k ∈ ks
  · rw [changeAll_of_mem hidem hk, changeAll_of_mem hidem ((h k).mp hk)]
  · rw [changeAll_of_notMem hk, changeAll_of_notMem fun hl => hk ((h k).mpr hl)]

end Idempotent

theorem changeAll_append :
    changeAll change (ks ++ ls) state = changeAll change ls (changeAll change ks state) :=
  List.foldl_append ..

/-- A loop of loops is one loop. -/
theorem changeAll_flatMap {A : Type*} (keys : A → List K) (as : List A) :
    changeAll change (as.flatMap keys) state =
      as.foldl (fun state a => changeAll change (keys a) state) state := by
  induction as generalizing state with
  | nil => rfl
  | cons a as ih => rw [List.flatMap_cons, changeAll_append, ih, List.foldl_cons]

end Disping.Transition
