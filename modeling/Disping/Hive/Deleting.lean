import Disping.Hive.Writing

/-! # Deletions from a hive -/
namespace Disping.Hive.Registry

variable (r : Registry)

/-- The values without those at the given locations. -/
def without (values : Location → Option RegValue) (gone : Location → Bool) :
    Location → Option RegValue :=
  fun loc => if gone loc then none else values loc

theorem without_without (values : Location → Option RegValue) (gone gone' : Location → Bool) :
    without (without values gone) gone' = without values fun loc => gone loc || gone' loc := by
  funext loc
  unfold without
  cases hgone : gone loc <;> simp [hgone]

theorem without_of_none {values : Location → Option RegValue} {gone : Location → Bool}
    (h : ∀ loc, gone loc = true → values loc = none) : without values gone = values := by
  funext loc
  unfold without
  split
  · exact (h loc ‹_›).symm
  · rfl

theorem values_deleteValue (p : Path) (n : Name) :
    (r.deleteValue p n).values = without r.values fun loc => loc = (p, n) := by
  funext loc
  by_cases h : loc = (p, n) <;> simp [deleteValue, without, h]

@[simp] theorem keys_deleteValue (p : Path) (n : Name) : (r.deleteValue p n).keys = r.keys := rfl

theorem values_deleteKey {p : Path} (h : r.subKeys p = []) :
    (r.deleteKey p).values = without r.values fun loc => loc.1 = p := by
  funext loc
  simp [deleteKey, h, without]

theorem keys_deleteKey {p : Path} (h : r.subKeys p = []) :
    (r.deleteKey p).keys = r.keys.filter fun k => k.path ≠ p := by
  simp [deleteKey, h]

theorem values_of_not_hasKey {loc : Location} (h : ¬ r.HasKey loc.1) : r.values loc = none := by
  by_contra hsome
  exact h (r.owned loc.1 loc.2 hsome)

/-- Deleting a key leaves the names below any key but its parent. -/
theorem subKeys_deleteKey {p q : Path} (n : Name) (h : p = q ++ [n]) (q' : Path) (hq : q' ≠ q) :
    (r.deleteKey p).subKeys q' = r.subKeys q' := by
  unfold deleteKey
  split
  · unfold subKeys
    rw [List.filter_filter]
    congr 1
    refine List.filter_congr fun k _ => ?_
    by_cases hk : k.parent = q'
    · have hne : k.path ≠ p := by
        intro heq
        rw [h, KeyEntry.path, ← List.concat_eq_append, ← List.concat_eq_append] at heq
        exact hq (hk ▸ (List.concat_inj.mp heq).1)
      simp [hk, hne]
    · simp [hk]
  · rfl

end Disping.Hive.Registry
