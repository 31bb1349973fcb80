import Disping.Text.Segments

/-! # The place of a pair among segments

Where a text reads as a pair of two words, three of its segments are the words and the white space
between them, and they are the segments behind the place.
-/
namespace Disping.Text

/-- A character that is no letter is alone in what it folds to. -/
theorem eq_of_sameFolded {c d : Char} (hd : d.isAlpha = false) (h : sameFolded c d = true) : c = d := by
  have hfold : c.toLower = d.toLower := beq_iff_eq.mp h
  obtain ⟨hup, hlow⟩ := Bool.or_eq_false_iff.mp hd
  have hupper : ¬ (d.val ≥ 'A'.val ∧ d.val ≤ 'Z'.val) := of_decide_eq_false hup
  have hlower : ¬ (d.val ≥ 'a'.val ∧ d.val ≤ 'z'.val) := by
    rintro ⟨hle, hge⟩
    have hboth : (decide (d.val ≥ 'a'.val) && decide (d.val ≤ 'z'.val)) = false := hlow
    rw [decide_eq_true hle, decide_eq_true hge] at hboth
    cases hboth
  have hsame : d.toLower = d := dif_neg hupper
  rw [hsame] at hfold
  by_cases hc : c.val ≥ 'A'.val ∧ c.val ≤ 'Z'.val
  · -- a capital letter folds to a letter
    have hbounds : 65 ≤ c.val.toNat ∧ c.val.toNat ≤ 90 := hc
    have hval : c.val.toNat + 32 = d.val.toNat := by
      have hlarge : c.toLower.val = c.val + 32 := congrArg Char.val (dif_pos hc)
      have hsmall : c.val.toNat + 32 < 2 ^ 32 := by omega
      rw [← hfold, hlarge, UInt32.toNat_add]
      exact (Nat.mod_eq_of_lt hsmall).symm
    refine absurd ?_ hlower
    show 97 ≤ d.val.toNat ∧ d.val.toNat ≤ 122
    omega
  · have hkept : c.toLower = c := dif_neg hc
    rw [← hkept, hfold]

theorem wordChar_of_isSpace {c : Char} (h : isSpace c = true) : wordChar c = false := by
  have hmem := of_decide_eq_true h
  simp only [List.mem_cons, List.not_mem_nil, or_false] at hmem
  rcases hmem with rfl | rfl | rfl | rfl | rfl | rfl <;> rfl

/-- The marks are told apart from letters, digits and underscores. -/
theorem sameFolded_word {c d : Char} (hc : wordChar c = true) (hd : wordChar d = false) :
    sameFolded c d = false := by
  by_contra h
  have halpha : d.isAlpha = false := by
    rw [wordChar, Bool.or_eq_false_iff, Char.isAlphanum, Bool.or_eq_false_iff] at hd
    exact hd.1.1
  obtain rfl := eq_of_sameFolded halpha (Bool.not_eq_false _ ▸ h)
  rw [hc] at hd
  cases hd

theorem unquoted_of_word {w : List Char} (hw : ∀ c ∈ w, wordChar c = true) :
    ∀ c ∈ w, sameFolded c '"' = false :=
  fun c hc => sameFolded_word (hw c hc) (by decide)

theorem sameFolded_quote (d : Char) : sameFolded '"' d = true ↔ d = '"' := by
  constructor
  · intro h
    apply eq_of_sameFolded (by decide)
    rw [sameFolded, beq_iff_eq] at h ⊢
    exact h.symm
  · rintro rfl
    decide

section Words
variable {same : Char → Char → Bool} {w t : List Char}

theorem Spells.not_mem {d : Char} (h : Spells same w t) (hd : ∀ c ∈ w, same c d = false) : d ∉ t := by
  induction h with
  | nil => exact List.not_mem_nil
  | cons hc _ ih =>
    rw [List.mem_cons, not_or]
    refine ⟨?_, ih fun e he => hd e (List.mem_cons_of_mem _ he)⟩
    rintro rfl
    rw [hd _ List.mem_cons_self] at hc
    cases hc

theorem Spells.append_split {w' : List Char} (h : Spells same (w ++ w') t) :
    ∃ u u', t = u ++ u' ∧ Spells same w u ∧ Spells same w' u' := by
  have htake := List.forall₂_take w.length h
  have hdrop := List.forall₂_drop w.length h
  rw [List.take_left] at htake
  rw [List.drop_left] at hdrop
  exact ⟨_, _, (List.take_append_drop w.length t).symm, htake, hdrop⟩

theorem spells_quoted (hquote : ∀ d, same '"' d = true ↔ d = '"') :
    Spells same (quoted w) t ↔ ∃ u, t = quoted u ∧ Spells same w u := by
  constructor
  · intro h
    obtain ⟨c, t, hc, ht, rfl⟩ := List.forall₂_cons_left_iff.mp h
    obtain ⟨u, e, rfl, hu, he⟩ := Spells.append_split ht
    obtain ⟨d, e, hd, hnil, rfl⟩ := List.forall₂_cons_left_iff.mp he
    obtain rfl := (hquote c).mp hc
    obtain rfl := (hquote d).mp hd
    obtain rfl := List.forall₂_nil_left_iff.mp hnil
    exact ⟨u, rfl, hu⟩
  · rintro ⟨u, rfl, h⟩
    have hq : same '"' '"' = true := (hquote '"').mpr rfl
    exact .cons hq (List.rel_append h (.cons hq .nil))

end Words

/-- What spells a word is no white space. -/
theorem not_gap_of_spells {w x : List Char} (hw : ∀ c ∈ w, wordChar c = true) (hne : w ≠ [])
    (h : Spells sameFolded w x) : ¬ Gap x := by
  intro hgap
  obtain ⟨c, w, rfl⟩ := List.exists_cons_of_ne_nil hne
  obtain ⟨d, x, hd, -, rfl⟩ := List.forall₂_cons_left_iff.mp h
  have hspace := wordChar_of_isSpace (hgap d List.mem_cons_self)
  rw [sameFolded_word (hw c List.mem_cons_self) hspace] at hd
  cases hd

section Pairs
variable {same : Char → Char → Bool} {key v text rest : List Char}
  (hquote : ∀ d, same '"' d = true ↔ d = '"')
include hquote

theorem readsPair_iff : ReadsPair same key v text rest ↔ ∃ x g u, Spells same key x ∧ Gap g ∧
    Spells same v u ∧ text = quoted x ++ (g ++ (quoted u ++ rest)) := by
  constructor
  · rintro ⟨w, g, t, hw, hg, ht, rfl⟩
    obtain ⟨x, rfl, hx⟩ := (spells_quoted hquote).mp hw
    obtain ⟨u, rfl, hu⟩ := (spells_quoted hquote).mp ht
    exact ⟨x, g, u, hx, hg, hu, rfl⟩
  · rintro ⟨x, g, u, hx, hg, hu, rfl⟩
    exact ⟨quoted x, g, quoted u, (spells_quoted hquote).mpr ⟨x, rfl, hx⟩, hg,
      (spells_quoted hquote).mpr ⟨u, rfl, hu⟩, rfl⟩

variable {c : Char} (hc : ∀ d ∈ '"' :: (key ++ v), same d c = false) (hspace : isSpace c = false)
include hc hspace

/-- A pair ends before a character that is in neither of its words. -/
theorem ReadsPair.before {t s : List Char} (h : ReadsPair same key v (t ++ c :: s) rest) :
    ∃ rest', ReadsPair same key v t rest' := by
  obtain ⟨x, g, u, hx, hg, hu, htext⟩ := (readsPair_iff hquote).mp h
  have hquoted : c ≠ '"' := by
    rintro rfl
    have hfalse := hc '"' List.mem_cons_self
    rw [(hquote '"').mpr rfl] at hfalse
    cases hfalse
  have hcx : c ∉ x := hx.not_mem fun d hd => hc d (by simp [hd])
  have hcu : c ∉ u := hu.not_mem fun d hd => hc d (by simp [hd])
  have hcg : c ∉ g := by
    intro hmem
    rw [hg c hmem] at hspace
    cases hspace
  have hpair : c ∉ quoted x ++ (g ++ quoted u) := by simp [quoted, hquoted, hcx, hcg, hcu]
  have hsplit : t ++ c :: s = (quoted x ++ (g ++ quoted u)) ++ rest := by
    rw [htext]
    simp
  obtain ⟨rest', ht⟩ : ∃ rest', t = (quoted x ++ (g ++ quoted u)) ++ rest' := by
    rcases List.append_eq_append_iff.mp hsplit with ⟨m, hm, hs⟩ | ⟨rest', ht, -⟩
    · cases m with
      | nil => exact ⟨[], by simpa using hm.symm⟩
      | cons d m =>
        obtain rfl := (List.cons.inj hs).1
        exact absurd (hm ▸ List.mem_append_right t List.mem_cons_self) hpair
    · exact ⟨rest', ht⟩
  refine ⟨rest', (readsPair_iff hquote).mpr ⟨x, g, u, hx, hg, hu, ?_⟩⟩
  rw [ht]
  simp

end Pairs

theorem mem_closed {d : Char} {segs : List (List Char)} (hd : d ≠ '"') :
    d ∈ closed segs ↔ ∃ s ∈ segs, d ∈ s := by
  simp [closed, hd]

/-- The text from a place on. -/
theorem text_from {a p last : List Char} {l : List (List Char)} (ha : a ++ ['"'] = p ++ '"' :: closed l)
    (r : List (List Char)) : p ++ '"' :: (closed (l ++ r) ++ last) = a ++ '"' :: (closed r ++ last) := by
  rw [closed_append, List.append_assoc, ← List.cons_append, ← List.append_assoc, ← ha]
  simp

/-- The quotation mark behind a list of segments. -/
theorem exists_place (p : List Char) (l : List (List Char)) : ∃ a, a ++ ['"'] = p ++ '"' :: closed l := by
  induction l generalizing p with
  | nil => exact ⟨p, rfl⟩
  | cons s l ih =>
    obtain ⟨a, ha⟩ := ih (p ++ '"' :: s)
    refine ⟨a, ?_⟩
    rw [ha, closed_cons]
    simp

section Places
variable {segs : List (List Char)} {last p : List Char} (hlast : '"' ∉ last) (hp : '"' ∉ p)

include hlast hp in
/-- A quotation mark of a text closes one of its segments or opens the first. -/
theorem closed_take {a b : List Char} (hsegs : Unquoted segs)
    (h : p ++ '"' :: (closed segs ++ last) = a ++ '"' :: b) :
    ∃ l r, segs = l ++ r ∧ a ++ ['"'] = p ++ '"' :: closed l ∧ b = closed r ++ last := by
  induction segs generalizing p a with
  | nil =>
    rcases split_at_quote hp h with ⟨rfl, hb⟩ | ⟨a', -, hb⟩
    · exact ⟨[], [], rfl, rfl, hb⟩
    · have hmem : '"' ∈ last := by
        rw [show last = a' ++ '"' :: b from hb]
        simp
      exact absurd hmem hlast
  | cons s segs ih =>
    rcases split_at_quote hp h with ⟨rfl, hb⟩ | ⟨a', rfl, hb⟩
    · exact ⟨[], s :: segs, rfl, rfl, hb⟩
    · rw [closed_cons, List.append_assoc, List.cons_append] at hb
      obtain ⟨l, r, rfl, ha, hr⟩ := ih (hsegs s List.mem_cons_self) hsegs.tail hb
      refine ⟨s :: l, r, rfl, ?_, hr⟩
      rw [List.append_assoc, List.cons_append, ha, closed_cons]

variable {same : Char → Char → Bool} {key v rest : List Char} (hquote : ∀ d, same '"' d = true ↔ d = '"')
include hquote

include hlast hp in
/-- The segments of a pair. -/
theorem ReadsPair.segments {a b : List Char} (hkey : ∀ c ∈ key, same c '"' = false)
    (hv : ∀ c ∈ v, same c '"' = false) (hsegs : Unquoted segs)
    (htext : p ++ '"' :: (closed segs ++ last) = a ++ b) (h : ReadsPair same key v b rest) :
    ∃ l x g u r, segs = l ++ x :: g :: u :: r ∧ Spells same key x ∧ Gap g ∧ Spells same v u ∧
      a ++ ['"'] = p ++ '"' :: closed l := by
  obtain ⟨x, g, u, hx, hg, hu, rfl⟩ := (readsPair_iff hquote).mp h
  rw [quoted_append] at htext
  obtain ⟨l, r, rfl, ha, hr⟩ := closed_take hlast hp hsegs htext
  have hrest : Unquoted r := fun s hs => hsegs s (List.mem_append_right l hs)
  obtain ⟨r, rfl, h₁⟩ := closed_split hrest hlast (hx.not_mem hkey) hr.symm
  rw [quoted_append] at h₁
  obtain ⟨r, rfl, h₂⟩ := closed_split hrest.tail hlast hg.unquoted h₁.symm
  obtain ⟨r, rfl, -⟩ := closed_split hrest.tail.tail hlast (hu.not_mem hv) h₂.symm
  exact ⟨l, x, g, u, r, rfl, hx, hg, hu, ha⟩

omit hlast hp in
/-- The pair of three segments. -/
theorem readsPair_segments {a x g u : List Char} {l r : List (List Char)} (hx : Spells same key x)
    (hg : Gap g) (hu : Spells same v u) (ha : a ++ ['"'] = p ++ '"' :: closed l) :
    ∃ b rest, p ++ '"' :: (closed (l ++ x :: g :: u :: r) ++ last) = a ++ b ∧
      ReadsPair same key v b rest := by
  refine ⟨quoted x ++ (g ++ (quoted u ++ (closed r ++ last))), closed r ++ last, ?_, ?_⟩
  · rw [closed_append, List.append_assoc, ← List.cons_append, ← List.append_assoc, ← ha]
    simp [quoted]
  · exact (readsPair_iff hquote).mpr ⟨x, g, u, hx, hg, hu, rfl⟩

end Places

end Disping.Text
