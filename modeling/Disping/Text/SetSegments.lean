import Disping.Text.Segments

/-! # What replacing pairs does to the list of segments

Replacing is settled by one run, and leaves a list as it is exactly when every pair that is read is set.
-/
namespace Disping.Text

section Lists
variable {key gap v : List Char}

@[simp] theorem length_setSegments (segs : List (List Char)) :
    (setSegments key gap v segs).length = segs.length := by
  induction segs using setSegments.induct key with
  | case1 a b c d segs h ih => simp [setSegments, h, ih]
  | case2 a b c d segs h ih => simp only [setSegments, if_neg h, List.length_cons, ih]
  | case3 a b c h => simp [setSegments, h]
  | case4 a b c h => simp only [setSegments, if_neg h]
  | case5 segs hlong hthree => rw [setSegments_short (length_le_two hlong hthree)]

/-- Only the first of a pair's segments decides where a pair begins, and it stays. -/
theorem head_setSegments (segs : List (List Char)) :
    (setSegments key gap v segs).head? = segs.head? := by
  unfold setSegments
  split
  · split
    · rename_i h
      simp [h.1]
    · rfl
  · split
    · rename_i h
      simp [h.1]
    · rfl
  · rfl

/-- A segment that begins no pair stays. -/
theorem setSegments_cons {a : List Char} {segs : List (List Char)}
    (h : ∀ b others, segs = b :: others → a = key → ¬ Gap b) :
    setSegments key gap v (a :: segs) = a :: setSegments key gap v segs := by
  match segs with
  | [] => rfl
  | [b] => rfl
  | [b, c] =>
    rw [setSegments, if_neg fun hab => h b [c] rfl hab.1 hab.2]
    rfl
  | b :: c :: d :: segs => rw [setSegments, if_neg fun hab => h b (c :: d :: segs) rfl hab.1 hab.2]

variable (hgap : Gap gap)
include hgap

theorem setSegments_idem (segs : List (List Char)) :
    setSegments key gap v (setSegments key gap v segs) = setSegments key gap v segs := by
  induction segs using setSegments.induct key with
  | case1 a b c d segs h ih => rw [setSegments, if_pos h, setSegments, if_pos ⟨rfl, hgap⟩, ih]
  | case2 a b c d segs h ih =>
    rw [setSegments, if_neg h, setSegments_cons, ih]
    intro b' others heq ha
    have hhead := @head_setSegments key gap v (b :: c :: d :: segs)
    rw [heq, List.head?_cons, List.head?_cons, Option.some.injEq] at hhead
    exact hhead ▸ fun hb => h ⟨ha, hb⟩
  | case3 a b c h => rw [setSegments, if_pos h, setSegments, if_pos ⟨rfl, hgap⟩]
  | case4 a b c h => rw [setSegments, if_neg h, setSegments, if_neg h]
  | case5 segs hlong hthree =>
    have hsame := @setSegments_short key gap v segs (length_le_two hlong hthree)
    rw [hsame, hsame]

end Lists

theorem setSegments_of_not_mem {key gap v : List Char} {segs : List (List Char)} (h : key ∉ segs) :
    setSegments key gap v segs = segs := by
  induction segs with
  | nil => rfl
  | cons a segs ih =>
    rw [List.mem_cons, not_or] at h
    rw [setSegments_cons fun _ _ _ ha => absurd ha.symm h.1, ih h.2]

/-- The pairs of a key that are read among segments: white space, and the value behind it. -/
def readPairs (key : List Char) : List (List Char) → List (List Char × List Char)
  | a :: b :: c :: d :: segs =>
    if a = key ∧ Gap b then (b, c) :: readPairs key segs else readPairs key (b :: c :: d :: segs)
  | [a, b, c] => if a = key ∧ Gap b then [(b, c)] else []
  | _ => []

theorem readPairs_short {key : List Char} {segs : List (List Char)} (h : segs.length ≤ 2) :
    readPairs key segs = [] := by
  match segs with
  | [] | [_] | [_, _] => rfl
  | a :: b :: c :: segs =>
    simp only [List.length_cons] at h
    omega

/-- Segments stay when every pair that is read is set already. -/
theorem setSegments_eq_self_iff {key gap v : List Char} {segs : List (List Char)} :
    setSegments key gap v segs = segs ↔ ∀ p ∈ readPairs key segs, p = (gap, v) := by
  induction segs using setSegments.induct key with
  | case1 a b c d segs h ih =>
    rw [setSegments, if_pos h, readPairs, if_pos h, List.forall_mem_cons, ← ih]
    simp only [List.cons.injEq, Prod.mk.injEq, true_and, h.1.symm, and_assoc, eq_comm (a := gap),
      eq_comm (a := v)]
  | case2 a b c d segs h ih =>
    rw [setSegments, if_neg h, readPairs, if_neg h, List.cons.injEq, ih]
    exact and_iff_right rfl
  | case3 a b c h =>
    rw [setSegments, if_pos h, readPairs, if_pos h, List.forall_mem_singleton]
    simp only [List.cons.injEq, Prod.mk.injEq, and_true, h.1.symm, true_and, eq_comm (a := gap),
      eq_comm (a := v)]
  | case4 a b c h =>
    rw [setSegments, if_neg h, readPairs, if_neg h]
    exact iff_of_true rfl (by simp)
  | case5 segs hlong hthree =>
    have hlength := length_le_two hlong hthree
    rw [setSegments_short hlength, readPairs_short hlength]
    exact iff_of_true rfl (by simp)

end Disping.Text
