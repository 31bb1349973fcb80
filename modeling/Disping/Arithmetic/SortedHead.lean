import Mathlib.Data.List.Nodup
import Mathlib.Order.Lattice

/-! # The head of a stable sort

The first element of a list sorted by a key is the first in the list among those with the least
key.
-/
namespace Disping.Arithmetic
variable {α β : Type*} [LinearOrder β] (key : α → β) {l : List α} {a b : α}

theorem keyLe_trans (a b c : α) (hab : decide (key a ≤ key b) = true)
    (hbc : decide (key b ≤ key c) = true) : decide (key a ≤ key c) = true := by
  rw [decide_eq_true_eq] at *
  exact le_trans hab hbc

theorem keyLe_total (a b : α) : (decide (key a ≤ key b) || decide (key b ≤ key a)) = true := by
  rw [Bool.or_eq_true, decide_eq_true_eq, decide_eq_true_eq]
  exact le_total _ _

variable {key}

theorem sorted_head_le {rest : List α}
    (h : l.mergeSort (fun a b => decide (key a ≤ key b)) = a :: rest) (hb : b ∈ l) :
    key a ≤ key b := by
  have hsorted := List.pairwise_mergeSort (keyLe_trans key) (keyLe_total key) l
  have hmem : b ∈ l.mergeSort (fun a b => decide (key a ≤ key b)) := List.mem_mergeSort.mpr hb
  rw [h] at hsorted hmem
  rcases List.mem_cons.mp hmem with rfl | hmem
  · exact le_refl _
  · exact of_decide_eq_true (List.rel_of_pairwise_cons hsorted hmem)

/-- What stands before the head in the list has a larger key. -/
theorem sorted_head_lt {rest : List α} (hnodup : l.Nodup)
    (h : l.mergeSort (fun a b => decide (key a ≤ key b)) = a :: rest)
    (hb : List.Sublist [b, a] l) : key a < key b := by
  by_contra hle
  have hkeys : decide (key b ≤ key a) = true := decide_eq_true (not_lt.mp hle)
  have hpair := List.pair_sublist_mergeSort (keyLe_trans key) (keyLe_total key) hkeys hb
  have hnodup' : (l.mergeSort (fun a b => decide (key a ≤ key b))).Nodup :=
    (List.mergeSort_perm _ _).nodup_iff.mpr hnodup
  rw [h] at hpair hnodup'
  have hne : b ≠ a := by
    have htwo : [b, a].Nodup := hnodup.sublist hb
    simpa using htwo
  have hrest : List.Sublist [b, a] rest := by
    cases hpair with
    | cons _ hrest => exact hrest
    | cons_cons _ _ => exact absurd rfl hne
  exact (List.nodup_cons.mp hnodup').1 (hrest.subset (by simp))

end Disping.Arithmetic
