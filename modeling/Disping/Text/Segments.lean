import Disping.Text.NamedSearch

/-! # Any text, cut at its quotation marks

Replacing pairs in a text that need not consist of tokens. Behind a quotation mark the text is a list of
segments, each closed by a quotation mark, and a last one; a pair is three segments in a row.
-/
namespace Disping.Text

instance : DecidablePred Gap := fun g => decidable_of_iff (g.all isSpace = true) List.all_eq_true

/-- Segments with the quotation marks that close them. -/
def closed (segs : List (List Char)) : List Char := segs.flatMap (· ++ ['"'])

def Unquoted (segs : List (List Char)) : Prop := ∀ s ∈ segs, '"' ∉ s

@[simp] theorem closed_nil : closed [] = [] := rfl

@[simp] theorem closed_cons (s : List Char) (segs : List (List Char)) :
    closed (s :: segs) = s ++ '"' :: closed segs := by simp [closed]

@[simp] theorem closed_append (segs others : List (List Char)) :
    closed (segs ++ others) = closed segs ++ closed others := List.flatMap_append

theorem Unquoted.tail {s : List Char} {segs : List (List Char)} (h : Unquoted (s :: segs)) :
    Unquoted segs := fun t ht => h t (List.mem_cons_of_mem s ht)

/-- Every text with a quotation mark, cut behind the first. -/
theorem exists_segments (t : List Char) :
    ∃ segs last, Unquoted segs ∧ '"' ∉ last ∧ t = closed segs ++ last := by
  induction t with
  | nil => exact ⟨[], [], nofun, List.not_mem_nil, rfl⟩
  | cons c t ih =>
    obtain ⟨segs, last, hsegs, hlast, rfl⟩ := ih
    by_cases hc : c = '"'
    · subst hc
      refine ⟨[] :: segs, last, ?_, hlast, by simp⟩
      intro s hs
      rcases List.mem_cons.mp hs with rfl | hs
      · exact List.not_mem_nil
      · exact hsegs s hs
    · cases segs with
      | nil => exact ⟨[], c :: last, nofun, by simp [Ne.symm hc, hlast], rfl⟩
      | cons s segs =>
        refine ⟨(c :: s) :: segs, last, ?_, hlast, by simp⟩
        intro u hu
        rcases List.mem_cons.mp hu with rfl | hu
        · simp [Ne.symm hc, hsegs s (List.mem_cons_self ..)]
        · exact hsegs u (List.mem_cons_of_mem s hu)

/-- Up to its first quotation mark a text reads the first segment. -/
theorem closed_split {segs : List (List Char)} {last w t : List Char} (hsegs : Unquoted segs)
    (hlast : '"' ∉ last) (hw : '"' ∉ w) (h : closed segs ++ last = w ++ '"' :: t) :
    ∃ others, segs = w :: others ∧ t = closed others ++ last := by
  cases segs with
  | nil =>
    have hmem : '"' ∈ last := by
      rw [show last = w ++ '"' :: t from h]
      simp
    exact absurd hmem hlast
  | cons s segs =>
    rw [closed_cons, List.append_assoc, List.cons_append] at h
    rcases split_at_quote (hsegs s (List.mem_cons_self ..)) h with ⟨rfl, rfl⟩ | ⟨a, rfl, -⟩
    · exact ⟨segs, rfl, rfl⟩
    · simp at hw

/-- A text is cut in one way. -/
theorem closed_inj {segs others : List (List Char)} {last last' : List Char} (hsegs : Unquoted segs)
    (hothers : Unquoted others) (hlast : '"' ∉ last) (hlast' : '"' ∉ last')
    (h : closed segs ++ last = closed others ++ last') : segs = others ∧ last = last' := by
  induction segs generalizing others with
  | nil =>
    cases others with
    | nil => exact ⟨rfl, h⟩
    | cons s others =>
      rw [show last = closed (s :: others) ++ last' from h] at hlast
      simp at hlast
  | cons s segs ih =>
    rw [closed_cons, List.append_assoc, List.cons_append] at h
    obtain ⟨rest, rfl, htail⟩ := closed_split hothers hlast' (hsegs s (List.mem_cons_self ..)) h.symm
    obtain ⟨rfl, rfl⟩ := ih hsegs.tail hothers.tail htail
    exact ⟨rfl, rfl⟩

/-- The pairs of a key among segments, from the left, with a new value. The quotation mark that closes
a value opens no other pair, so the segment after a pair is passed over. -/
def setSegments (key gap v : List Char) : List (List Char) → List (List Char)
  | a :: b :: c :: d :: segs =>
    if a = key ∧ Gap b then key :: gap :: v :: d :: setSegments key gap v segs
    else a :: setSegments key gap v (b :: c :: d :: segs)
  | [a, b, c] => if a = key ∧ Gap b then [key, gap, v] else [a, b, c]
  | segs => segs

section Short
variable {key gap v : List Char} {segs : List (List Char)}

theorem setSegments_short (h : segs.length ≤ 2) : setSegments key gap v segs = segs := by
  match segs with
  | [] | [_] | [_, _] => rfl
  | a :: b :: c :: segs =>
    simp only [List.length_cons] at h
    omega

end Short

theorem length_le_two {α : Type} {l : List α}
    (hlong : ∀ a b c d others, l = a :: b :: c :: d :: others → False)
    (hthree : ∀ a b c, l = [a, b, c] → False) : l.length ≤ 2 := by
  match l with
  | [] | [_] | [_, _] => simp
  | [a, b, c] => exact (hthree a b c rfl).elim
  | a :: b :: c :: d :: l => exact (hlong a b c d l rfl).elim

section Replacing
variable {key gap v : List Char} {segs : List (List Char)} {last : List Char} (hkey : '"' ∉ key)
  (hlast : '"' ∉ last)
include hkey hlast

/-- Where the expression matches at a quotation mark, three segments follow. -/
theorem pair_segments (hsegs : Unquoted segs) {g x t : List Char} (hg : Gap g) (hx : '"' ∉ x)
    (h : '"' :: (closed segs ++ last) = quoted key ++ (g ++ quoted x ++ t)) :
    ∃ others, segs = key :: g :: x :: others ∧ t = closed others ++ last := by
  rw [quoted_append, List.cons.injEq] at h
  obtain ⟨others, rfl, h₁⟩ := closed_split hsegs hlast hkey h.2
  rw [List.append_assoc, quoted_append] at h₁
  obtain ⟨others, rfl, h₂⟩ := closed_split hsegs.tail hlast hg.unquoted h₁.symm
  obtain ⟨others, rfl, h₃⟩ := closed_split hsegs.tail.tail hlast hx h₂.symm
  exact ⟨others, rfl, h₃⟩

theorem matchAt_segments_none (hsegs : Unquoted segs)
    (hother : ∀ g x others, segs = key :: g :: x :: others → ¬ Gap g) (before : List Char) :
    (pairExpression key).matchAt before ('"' :: (closed segs ++ last)) = none := by
  apply matchAt_pair_none
  intro g x t hg hx heq
  obtain ⟨others, hsegs', -⟩ := pair_segments hkey hlast hsegs hg hx heq
  exact hother g x others hsegs' hg

theorem replaceFrom_segment (new : List Char) {a : List Char} (hsegs : Unquoted (a :: segs))
    (hother : ∀ g x others, a :: segs = key :: g :: x :: others → ¬ Gap g) (before : List Char) :
    ∃ before', (pairExpression key).replaceFrom new before 0 ('"' :: (closed (a :: segs) ++ last)) =
      '"' :: (a ++ (pairExpression key).replaceFrom new before' 0 ('"' :: (closed segs ++ last))) := by
  have hnone := matchAt_segments_none hkey hlast hsegs hother before
  refine ⟨a.reverse ++ ('"' :: before), ?_⟩
  rw [replaceFrom_none hnone, closed_cons, List.append_assoc, List.cons_append,
    replaceFrom_unquoted _ _ (hsegs a (List.mem_cons_self ..))]

theorem replaceFrom_last (new before : List Char) :
    (pairExpression key).replaceFrom new before 0 ('"' :: last) = '"' :: last := by
  have hnone := @matchAt_segments_none key [] last hkey hlast nofun nofun before
  have hkept := @replaceFrom_unquoted key new ('"' :: before) last hlast []
  simp only [closed_nil, List.nil_append] at hnone
  rw [replaceFrom_none hnone]
  simpa [Expression.replaceFrom] using hkept

theorem replaceFrom_short (new : List Char) (hsegs : Unquoted segs) (hlength : segs.length ≤ 2)
    (before : List Char) : (pairExpression key).replaceFrom new before 0 ('"' :: (closed segs ++ last)) =
      '"' :: (closed segs ++ last) := by
  induction segs generalizing before with
  | nil => exact replaceFrom_last hkey hlast new before
  | cons a segs ih =>
    have hother : ∀ g x others, a :: segs = key :: g :: x :: others → ¬ Gap g := by
      rintro g x others heq
      rw [heq] at hlength
      simp at hlength
    obtain ⟨before', hkept⟩ := replaceFrom_segment hkey hlast new hsegs hother before
    rw [hkept, ih hsegs.tail (Nat.le_of_succ_le hlength)]
    simp

/-- Replacing in any text behind a quotation mark. -/
theorem replaceFrom_segments (hsegs : Unquoted segs) (before : List Char) :
    (pairExpression key).replaceFrom (quoted key ++ (gap ++ quoted v)) before 0
      ('"' :: (closed segs ++ last)) = '"' :: (closed (setSegments key gap v segs) ++ last) := by
  induction segs using setSegments.induct key generalizing before with
  | case1 a b c d segs h ih =>
    obtain ⟨rfl, hb⟩ := h
    let value := a ++ ['"'] ++ b ++ quoted c
    have hc : '"' ∉ c := hsegs c (by simp)
    have hd : '"' ∉ d := hsegs d (by simp)
    have htext : '"' :: (closed (a :: b :: c :: d :: segs) ++ last) =
        '"' :: (value ++ (d ++ '"' :: (closed segs ++ last))) := by simp [value, quoted]
    have hread : quoted a ++ (b ++ quoted c ++ (d ++ '"' :: (closed segs ++ last))) =
        '"' :: (value ++ (d ++ '"' :: (closed segs ++ last))) := by simp [value, quoted]
    obtain ⟨y, hmatch, hy⟩ := @matchAt_pair_some a _ _ hb hc (d ++ '"' :: (closed segs ++ last)) before
    rw [htext, replaceFrom_some (hread ▸ hmatch) hy, replaceFrom_unquoted _ _ hd,
      ih hsegs.tail.tail.tail.tail, setSegments, if_pos ⟨rfl, hb⟩]
    simp [quoted]
  | case2 a b c d segs h ih =>
    have hother : ∀ g x others, a :: b :: c :: d :: segs = key :: g :: x :: others → ¬ Gap g := by
      rintro g x others heq hg
      cases heq
      exact h ⟨rfl, hg⟩
    obtain ⟨before', hkept⟩ := replaceFrom_segment hkey hlast _ hsegs hother before
    rw [hkept, ih hsegs.tail, setSegments, if_neg h]
    simp
  | case3 a b c h =>
    obtain ⟨rfl, hb⟩ := h
    let value := a ++ ['"'] ++ b ++ quoted c
    have htext : '"' :: (closed [a, b, c] ++ last) = '"' :: (value ++ last) := by simp [value, quoted]
    have hread : quoted a ++ (b ++ quoted c ++ last) = '"' :: (value ++ last) := by simp [value, quoted]
    obtain ⟨y, hmatch, hy⟩ := @matchAt_pair_some a _ _ hb (hsegs c (by simp)) last before
    have hkept := @replaceFrom_unquoted a (quoted a ++ (gap ++ quoted v)) (('"' :: value).reverse ++ before)
      last hlast []
    rw [List.append_nil] at hkept
    rw [htext, replaceFrom_some (hread ▸ hmatch) hy, hkept, setSegments, if_pos ⟨rfl, hb⟩]
    simp [quoted, Expression.replaceFrom]
  | case4 a b c h =>
    have hother : ∀ g x others, [a, b, c] = key :: g :: x :: others → ¬ Gap g := by
      rintro g x others heq hg
      cases heq
      exact h ⟨rfl, hg⟩
    obtain ⟨before', hkept⟩ := replaceFrom_segment hkey hlast _ hsegs hother before
    rw [hkept, replaceFrom_short hkey hlast _ hsegs.tail (by simp), setSegments, if_neg h]
    simp
  | case5 segs hlong hthree =>
    have hlength := length_le_two hlong hthree
    rw [setSegments_short hlength, replaceFrom_short hkey hlast _ hsegs hlength]

/-- A quoted key stands in a text where it is one of the closed segments. -/
theorem quoted_infix_segments (hsegs : Unquoted segs) :
    quoted key <:+: '"' :: (closed segs ++ last) ↔ key ∈ segs := by
  induction segs with
  | nil =>
    have hnone : ¬ quoted key <:+: '"' :: last := by
      rw [List.infix_cons_iff, ← List.append_nil last, quoted_infix_append hlast]
      rintro (⟨u, hu⟩ | hin)
      · rw [quoted_append, List.append_nil, List.cons.injEq] at hu
        apply hlast
        rw [← hu.2]
        simp
      · simp [quoted] at hin
    exact iff_of_false hnone List.not_mem_nil
  | cons s segs ih =>
    have hs := hsegs s (List.mem_cons_self ..)
    rw [closed_cons, List.append_assoc, List.cons_append, List.infix_cons_iff, quoted_prefix_iff hkey hs,
      quoted_infix_append hs, ih hsegs.tail, List.mem_cons]

end Replacing

end Disping.Text
