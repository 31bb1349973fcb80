import Disping.Text.Marks
import Disping.Text.SetSegments

/-! # Segments with what is written over them

Replacing the pairs of a key marks the white space and the value of every pair that is read; a segment that
is written over is no key for what comes after.
-/
namespace Disping.Text

/-- The pairs of a key among segments, marked with a new value. -/
def markSegments (key gap v : List Char) : List Cell → List Cell
  | a :: b :: c :: d :: cells =>
    if a.written = key ∧ Gap b.written then
      a :: { b with new := some gap } :: { c with new := some v } :: d :: markSegments key gap v cells
    else a :: markSegments key gap v (b :: c :: d :: cells)
  | [a, b, c] =>
    if a.written = key ∧ Gap b.written then [a, { b with new := some gap }, { c with new := some v }]
    else [a, b, c]
  | cells => cells

/-- The pairs of a key that are read: white space, and the value behind it. -/
def readMarked (key : List Char) : List Cell → List (Cell × Cell)
  | a :: b :: c :: d :: cells =>
    if a.written = key ∧ Gap b.written then (b, c) :: readMarked key cells
    else readMarked key (b :: c :: d :: cells)
  | [a, b, c] => if a.written = key ∧ Gap b.written then [(b, c)] else []
  | _ => []

/-- A pair that an edit has written, or that reads so as it stands. -/
def IsSet (gap v : List Char) (p : Cell × Cell) : Prop := p.1.written = gap ∧ p.2.written = v

instance (gap v : List Char) : DecidablePred (IsSet gap v) := fun _ => inferInstanceAs (Decidable (_ ∧ _))

section Marking
variable {key gap v : List Char} {cells : List Cell}

theorem markSegments_written (key gap v : List Char) (cells : List Cell) :
    (markSegments key gap v cells).map Cell.written = setSegments key gap v (cells.map Cell.written) := by
  induction cells using markSegments.induct key with
  | case1 a b c d cells h ih =>
    rw [markSegments, if_pos h]
    simp only [List.map_cons, setSegments, if_pos h, ih]
    rw [h.1]
    rfl
  | case2 a b c d cells h ih =>
    rw [markSegments, if_neg h, List.map_cons, ih]
    simp only [List.map_cons, setSegments, if_neg h]
  | case3 a b c h =>
    rw [markSegments, if_pos h]
    simp only [List.map_cons, List.map_nil, setSegments, if_pos h]
    rw [h.1]
    rfl
  | case4 a b c h =>
    rw [markSegments, if_neg h]
    simp only [List.map_cons, List.map_nil, setSegments, if_neg h]
  | case5 cells hlong hthree =>
    have hlength : (cells.map Cell.written).length ≤ 2 := by
      rw [List.length_map]
      exact length_le_two hlong hthree
    rw [markSegments, setSegments_short hlength]
    · exact hlong
    · exact hthree

theorem readMarked_written (key : List Char) (cells : List Cell) :
    readPairs key (cells.map Cell.written) =
      (readMarked key cells).map fun p => (p.1.written, p.2.written) := by
  induction cells using readMarked.induct key with
  | case1 a b c d cells h ih => simp only [List.map_cons, readPairs, readMarked, if_pos h, ih]
  | case2 a b c d cells h ih =>
    rw [readMarked, if_neg h, ← ih]
    simp only [List.map_cons, readPairs, if_neg h]
  | case3 a b c h => simp only [List.map_cons, List.map_nil, readPairs, readMarked, if_pos h]
  | case4 a b c h => simp only [List.map_cons, List.map_nil, readPairs, readMarked, if_neg h]
  | case5 cells hlong hthree =>
    have hlength : (cells.map Cell.written).length ≤ 2 := by
      rw [List.length_map]
      exact length_le_two hlong hthree
    rw [readMarked, readPairs_short hlength, List.map_nil]
    · exact hlong
    · exact hthree

/-- Every pair that is read is set, in terms of the marks. -/
theorem readPairs_written_iff : (∀ p ∈ readPairs key (cells.map Cell.written), p = (gap, v)) ↔
    ∀ p ∈ readMarked key cells, IsSet gap v p := by
  rw [readMarked_written, List.forall_mem_map]
  exact forall₂_congr fun p _ => Prod.mk.injEq .. ▸ Iff.rfl

theorem takes_markSegments {vs : List (List Char)} (hgap : gap ∈ vs) (hv : v ∈ vs)
    (h : ∀ c ∈ cells, c.Takes vs) : ∀ c ∈ markSegments key gap v cells, c.Takes vs := by
  induction cells using markSegments.induct key with
  | case1 a b c d cells hab ih =>
    rw [markSegments, if_pos hab]
    simp only [List.forall_mem_cons] at h ⊢
    exact ⟨h.1, Cell.takes_new hgap _, Cell.takes_new hv _, h.2.2.2.1, ih h.2.2.2.2⟩
  | case2 a b c d cells hab ih =>
    rw [markSegments, if_neg hab, List.forall_mem_cons]
    rw [List.forall_mem_cons] at h
    exact ⟨h.1, ih h.2⟩
  | case3 a b c hab =>
    rw [markSegments, if_pos hab]
    simp only [List.forall_mem_cons] at h ⊢
    exact ⟨h.1, Cell.takes_new hgap _, Cell.takes_new hv _, h.2.2.2⟩
  | case4 a b c hab => rwa [markSegments, if_neg hab]
  | case5 cells hlong hthree =>
    rw [markSegments]
    · exact h
    · exact hlong
    · exact hthree

theorem markSegments_text (key gap v : List Char) (cells : List Cell) :
    (markSegments key gap v cells).map Cell.text = cells.map Cell.text := by
  induction cells using markSegments.induct key with
  | case1 a b c d cells h ih => simp [markSegments, h, ih]
  | case2 a b c d cells h ih =>
    rw [markSegments, if_neg h, List.map_cons, ih]
    rfl
  | case3 a b c h => simp [markSegments, h]
  | case4 a b c h => rw [markSegments, if_neg h]
  | case5 cells hlong hthree =>
    rw [markSegments]
    · exact hlong
    · exact hthree

end Marking

end Disping.Text
