import Disping.Text.SetSegments

/-! # Edits of a list of segments

Edits of different keys leave each other's pairs alone as long as no key stands where another reads its
value.
-/
namespace Disping.Text

/-- Words that are told apart from white space, and new values from keys. -/
structure Vocabulary where
  keys : List (List Char)
  gap : List Char
  values : List (List Char)
  gap_space : Gap gap
  keys_word : ∀ k ∈ keys, ¬ Gap k
  values_word : ∀ v ∈ values, ¬ Gap v
  values_other : ∀ v ∈ values, v ∉ keys

namespace Vocabulary
variable (voc : Vocabulary)

/-- What edits of the given keys make of segment `i`: white space behind a key may be written anew, and
a value behind it. -/
def Change (keys : List (List Char)) (segs : List (List Char)) (i : ℕ) (x y : List Char) : Prop :=
  y = x ∨
  (Gap x ∧ y = voc.gap ∧ ∃ j, i = j + 1 ∧ ∃ k ∈ keys, segs[j]? = some k) ∨
  (y ∈ voc.values ∧ ∃ j, i = j + 2 ∧ (∃ k ∈ keys, segs[j]? = some k) ∧ ∃ b, segs[j + 1]? = some b ∧ Gap b)

/-- A list whose first segments are those of another, edited. -/
def Edited (keys : List (List Char)) (segs others : List (List Char)) : Prop :=
  ∀ i x, segs[i]? = some x → ∃ y, others[i]? = some y ∧ voc.Change keys segs i x y

variable {voc} {keys segs others : List (List Char)}

theorem Edited.append (segs others : List (List Char)) : voc.Edited keys segs (segs ++ others) := by
  intro i x hx
  refine ⟨x, ?_, .inl rfl⟩
  rw [List.getElem?_append_left (List.getElem?_eq_some_iff.mp hx).1, hx]

theorem Edited.refl (segs : List (List Char)) : voc.Edited keys segs segs := by
  simpa using @Edited.append voc keys segs []

theorem Edited.mono {more : List (List Char)} (hkeys : ∀ k ∈ keys, k ∈ more)
    (h : voc.Edited keys segs others) : voc.Edited more segs others := by
  intro i x hx
  obtain ⟨y, hy, hchange⟩ := h i x hx
  refine ⟨y, hy, ?_⟩
  rcases hchange with h | ⟨hgap, hy, j, hj, k, hk, hat⟩ | ⟨hy, j, hj, ⟨k, hk, hat⟩, hb⟩
  · exact .inl h
  · exact .inr (.inl ⟨hgap, hy, j, hj, k, hkeys k hk, hat⟩)
  · exact .inr (.inr ⟨hy, j, hj, ⟨k, hkeys k hk, hat⟩, hb⟩)

theorem Change.cons {i : ℕ} {x y : List Char} (a : List Char) (h : voc.Change keys segs i x y) :
    voc.Change keys (a :: segs) (i + 1) x y := by
  rcases h with h | ⟨hgap, hnew, j, rfl, hk⟩ | ⟨hnew, j, rfl, hk, hb⟩
  · exact .inl h
  · exact .inr (.inl ⟨hgap, hnew, j + 1, rfl, hk⟩)
  · exact .inr (.inr ⟨hnew, j + 1, rfl, hk, hb⟩)

theorem Edited.cons (a : List Char) (h : voc.Edited keys segs others) :
    voc.Edited keys (a :: segs) (a :: others) := by
  intro i x hx
  cases i with
  | zero => exact ⟨x, hx, .inl rfl⟩
  | succ i =>
    obtain ⟨y, hy, hchange⟩ := h i x hx
    exact ⟨y, hy, hchange.cons a⟩

/-- A pair that is set. -/
theorem Edited.pair {k b c v : List Char} (hk : k ∈ keys) (hb : Gap b) (hv : v ∈ voc.values)
    (h : voc.Edited keys segs others) :
    voc.Edited keys (k :: b :: c :: segs) (k :: voc.gap :: v :: others) := by
  intro i x hx
  match i with
  | 0 => exact ⟨x, hx, .inl rfl⟩
  | 1 =>
    cases hx
    exact ⟨voc.gap, rfl, .inr (.inl ⟨hb, rfl, 0, rfl, k, hk, rfl⟩)⟩
  | 2 => exact ⟨v, rfl, .inr (.inr ⟨hv, 0, rfl, ⟨k, hk, rfl⟩, b, rfl, hb⟩)⟩
  | i + 3 =>
    obtain ⟨y, hy, hchange⟩ := h i x hx
    exact ⟨y, hy, ((hchange.cons c).cons b).cons k⟩

theorem edited_setSegments {key v : List Char} (hk : key ∈ keys) (hv : v ∈ voc.values)
    (segs : List (List Char)) : voc.Edited keys segs (setSegments key voc.gap v segs) := by
  induction segs using setSegments.induct key with
  | case1 a b c d segs h ih =>
    obtain ⟨rfl, hb⟩ := h
    rw [setSegments, if_pos ⟨rfl, hb⟩]
    exact .pair hk hb hv (ih.cons d)
  | case2 a b c d segs h ih =>
    rw [setSegments, if_neg h]
    exact ih.cons a
  | case3 a b c h =>
    obtain ⟨rfl, hb⟩ := h
    rw [setSegments, if_pos ⟨rfl, hb⟩]
    exact .pair hk hb hv (.refl [])
  | case4 a b c h =>
    rw [setSegments, if_neg h]
    exact .refl _
  | case5 segs hlong hthree =>
    rw [setSegments_short (length_le_two hlong hthree)]
    exact .refl _

section Facts
variable {i : ℕ} {x y : List Char}

/-- A key that stands in an edited place stood there before. -/
theorem Change.key (h : voc.Change keys segs i x y) (hy : y ∈ voc.keys) : y = x := by
  rcases h with h | ⟨-, rfl, -⟩ | ⟨hnew, -⟩
  · exact h
  · exact absurd voc.gap_space (voc.keys_word _ hy)
  · exact absurd hy (voc.values_other y hnew)

theorem Change.old_or_new (h : voc.Change keys segs i x y) : y = x ∨ y = voc.gap ∨ y ∈ voc.values := by
  rcases h with h | ⟨-, h, -⟩ | ⟨h, -⟩
  · exact .inl h
  · exact .inr (.inl h)
  · exact .inr (.inr h)

theorem Change.gap (h : voc.Change keys segs i x y) (hy : Gap y) : Gap x := by
  rcases h with rfl | ⟨hgap, -⟩ | ⟨hnew, -⟩
  · exact hy
  · exact hgap
  · exact absurd hy (voc.values_word y hnew)

theorem Edited.at_some (h : voc.Edited keys segs others) (hi : i < segs.length) (hy : others[i]? = some y) :
    ∃ x, segs[i]? = some x ∧ voc.Change keys segs i x y := by
  obtain ⟨y', hy', hchange⟩ := h i segs[i] (List.getElem?_eq_getElem hi)
  rw [hy] at hy'
  cases hy'
  exact ⟨segs[i], List.getElem?_eq_getElem hi, hchange⟩

theorem Edited.length_le (h : voc.Edited keys segs others) : segs.length ≤ others.length := by
  by_contra hlt
  obtain ⟨y, hy, -⟩ := h others.length _ (List.getElem?_eq_getElem (by omega))
  simp at hy

/-- Edits one after the other. -/
theorem Edited.trans {more : List (List Char)} (hkeys : ∀ k ∈ keys, k ∈ voc.keys)
    (h : voc.Edited keys segs others) (h' : voc.Edited keys others more) : voc.Edited keys segs more := by
  intro i x hx
  obtain ⟨y, hy, hxy⟩ := h i x hx
  obtain ⟨z, hz, hyz⟩ := h' i y hy
  have hi : i < segs.length := (List.getElem?_eq_some_iff.mp hx).1
  -- a key before the place was there before the first edits
  have hbefore : ∀ j, j < i → (∃ k ∈ keys, others[j]? = some k) → ∃ k ∈ keys, segs[j]? = some k := by
    rintro j hj ⟨k, hk, hat⟩
    obtain ⟨w, hw, hchange⟩ := h.at_some (Nat.lt_trans hj hi) hat
    exact ⟨k, hk, hchange.key (hkeys k hk) ▸ hw⟩
  refine ⟨z, hz, ?_⟩
  rcases hyz with rfl | ⟨hgap, rfl, j, rfl, hk⟩ | ⟨hnew, j, rfl, hk, b, hb, hbgap⟩
  · exact hxy
  · exact .inr (.inl ⟨hxy.gap hgap, rfl, j, rfl, hbefore j (by omega) hk⟩)
  · obtain ⟨w, hw, hchange⟩ := h.at_some (by omega) hb
    exact .inr (.inr ⟨hnew, j, rfl, hbefore j (by omega) hk, w, hw, hchange.gap hbgap⟩)

/-- A key is lost to an edit only as the value of the edit's key. -/
theorem Edited.mem {key k : List Char} (hk : k ∈ voc.keys) (h : voc.Edited [key] segs others) {i : ℕ}
    (hi : segs[i]? = some k)
    (hfree : ∀ j b, i = j + 2 → segs[j]? = some key → segs[j + 1]? = some b → ¬ Gap b) :
    others[i]? = some k := by
  obtain ⟨y, hy, hchange⟩ := h i k hi
  rcases hchange with rfl | ⟨hgap, -⟩ | ⟨-, j, hj, ⟨k', hk', hat⟩, b, hb, hbgap⟩
  · exact hy
  · exact absurd hgap (voc.keys_word k hk)
  · rw [List.mem_singleton.mp hk'] at hat
    exact absurd hbgap (hfree j b hj hat hb)

/-- Edits that undo one another have done nothing. -/
theorem Edited.back {more : List (List Char)} (hkeys : ∀ k ∈ more, k ∈ voc.keys)
    (hother : ∀ k ∈ keys, k ∉ more) (h : voc.Edited keys segs others) (h' : voc.Edited more others segs) :
    others = segs := by
  have hlength := Nat.le_antisymm h'.length_le h.length_le
  -- a key that undoes stood in its place before, so it is no key of the first edits
  have hbefore : ∀ j : ℕ, (∃ k ∈ keys, segs[j]? = some k) → ¬ ∃ k ∈ more, others[j]? = some k := by
    rintro j ⟨k, hk, hat⟩ ⟨k', hk', hat'⟩
    have hlt : j < segs.length := (List.getElem?_eq_some_iff.mp hat).1
    obtain ⟨x, hx, hchange⟩ := h.at_some hlt hat'
    obtain rfl := hchange.key (hkeys k' hk')
    obtain rfl : k = k' := Option.some.inj (hat.symm.trans hx)
    exact hother k hk hk'
  apply List.ext_getElem? fun i => ?_
  rcases Nat.lt_or_ge i segs.length with hlt | hge
  · obtain ⟨y, hy, hxy⟩ := h i _ (List.getElem?_eq_getElem hlt)
    obtain ⟨x, hx, hyx⟩ := h' i y hy
    rw [hy, hx, Option.some_inj]
    obtain rfl : segs[i] = x := Option.some.inj ((List.getElem?_eq_getElem hlt).symm.trans hx)
    rcases hxy with hsame | ⟨hgap, -, j, rfl, hk⟩ | ⟨hnew, j, rfl, hk, -⟩
    · exact hsame
    · rcases hyx with hsame | ⟨-, -, j', hj, hk'⟩ | ⟨hvalue, -⟩
      · exact hsame.symm
      · obtain rfl : j = j' := Nat.succ.inj hj
        exact absurd hk' (hbefore j hk)
      · exact absurd hgap (voc.values_word _ hvalue)
    · rcases hyx with hsame | ⟨hgap, -⟩ | ⟨-, j', hj, hk', -⟩
      · exact hsame.symm
      · exact absurd hgap (voc.values_word y hnew)
      · obtain rfl : j = j' := Nat.add_right_cancel hj
        exact absurd hk' (hbefore j hk)
  · rw [List.getElem?_eq_none hge, List.getElem?_eq_none (hlength ▸ hge)]

end Facts

end Vocabulary

end Disping.Text
