import Disping.Healing.SettledBlock
import Disping.Text.PairSegments
import Disping.Text.PlainPattern

/-! # The match of a name in a block

The expression made of a name of letters, digits and underscores finds three segments in a row. No pair of
strings reaches over a brace, so the first match of the file is the first match in its block.
-/
namespace Disping.Healing

open Text

def accountName : List Char := "AccountName".toList

theorem accountName_word : ∀ c ∈ accountName, wordChar c = true := List.all_eq_true.mp rfl

section Search
variable {user content : List Char} (huser : ∀ c ∈ user, wordChar c = true)
include huser

theorem regex_accountPattern :
    regex (accountPattern user) true = some (namedExpression sameFolded accountName user) := by
  refine @regex_named accountName user ?_ ?_ true
  · exact fun c hc => .inl (accountName_word c hc)
  · exact fun c hc => .inl (huser c hc)

theorem nameSearch_eq (content : List Char) : nameSearch user content =
    some ((regexSearch (namedExpression sameFolded accountName user) content).map Prod.fst) := by
  rw [nameSearch, regex_accountPattern huser, Option.map_some]

/-- A mark is in neither word of the pair. -/
theorem sameFolded_pair {d : Char} (hd : wordChar d = false) (hquote : d ≠ '"') :
    ∀ c ∈ '"' :: (accountName ++ user), sameFolded c d = false := by
  intro c hc
  rcases List.mem_cons.mp hc with rfl | hc
  · exact Bool.eq_false_iff.mpr fun h => hquote ((sameFolded_quote d).mp h)
  · rcases List.mem_append.mp hc with hc | hc
    · exact sameFolded_word (accountName_word c hc) hd
    · exact sameFolded_word (huser c hc) hd

end Search

/-! A block and its match. -/

/-- What spells the name of the account is no key and no new value. -/
theorem accountName_spelled {x : List Char} (h : Spells sameFolded accountName x) :
    ¬ Gap x ∧ x ∉ voc.values ∧ x ∉ voc.keys := by
  have hvalues : ∀ v ∈ voc.values, v.length ≠ accountName.length := by decide
  have hkeys : ∀ k ∈ voc.keys, k.length ≠ accountName.length := by decide
  have hlength : x.length = accountName.length := (List.Forall₂.length_eq h).symm
  exact ⟨not_gap_of_spells accountName_word (List.cons_ne_nil _ _) h, fun hx => hvalues x hx hlength,
    fun hx => hkeys x hx hlength⟩

/-- Three segments that read as the pair of the name. -/
def PairAt (user : List Char) (segs : List (List Char)) (i : ℕ) : Prop :=
  ∃ x g u, segs[i]? = some x ∧ Spells sameFolded accountName x ∧ segs[i + 1]? = some g ∧ Gap g ∧
    segs[i + 2]? = some u ∧ Spells sameFolded user u

/-- The text between the braces of a block, cut at the match and at its quotation marks. -/
structure MatchedCut (user left right p : List Char) (c : Cut) (l : List (List Char)) : Prop where
  unquoted : '"' ∉ p
  cut : c.Unquoted
  begins : l <+: c.segs
  pair : PairAt user c.segs l.length
  place : left ++ ['"'] = p ++ '"' :: closed l
  text : left ++ right = p ++ '"' :: (closed c.segs ++ c.last)

theorem PairAt.split {user : List Char} {segs : List (List Char)} {i : ℕ} (h : PairAt user segs i) :
    ∃ x g u, segs = segs.take i ++ x :: g :: u :: segs.drop (i + 3) ∧ Spells sameFolded accountName x ∧
      Gap g ∧ Spells sameFolded user u := by
  obtain ⟨x, g, u, hx, hname, hg, hgap, hu, huser⟩ := h
  refine ⟨x, g, u, ?_, hname, hgap, huser⟩
  obtain ⟨hi, rfl⟩ := List.getElem?_eq_some_iff.mp hx
  obtain ⟨hi₁, rfl⟩ := List.getElem?_eq_some_iff.mp hg
  obtain ⟨hi₂, rfl⟩ := List.getElem?_eq_some_iff.mp hu
  rw [List.getElem_cons_drop, List.getElem_cons_drop, List.getElem_cons_drop, List.take_append_drop]

theorem pairAt_append {user x g u : List Char} {l r : List (List Char)}
    (hx : Spells sameFolded accountName x) (hg : Gap g) (hu : Spells sameFolded user u) :
    PairAt user (l ++ x :: g :: u :: r) l.length := by
  refine ⟨x, g, u, ?_, hx, ?_, hg, ?_, hu⟩ <;> simp

section Blocks
variable {user : List Char} (huser : ∀ c ∈ user, wordChar c = true)

include huser in
/-- A match in the text of a block is a match among its segments. -/
theorem exists_matchedCut {left right rest : List Char}
    (h : ReadsPair sameFolded accountName user right rest) :
    ∃ p c l, MatchedCut user left right p c l := by
  obtain ⟨x, g, u, -, -, -, hright⟩ := (readsPair_iff sameFolded_quote).mp h
  have hmem : '"' ∈ left ++ right := by
    rw [hright]
    simp [quoted]
  obtain ⟨p, c, hp, hc, htext⟩ := exists_cut hmem
  obtain ⟨l, x, g, u, r, hsegs, hx, hg, hu, hplace⟩ := h.segments hc.last hp sameFolded_quote
    (unquoted_of_word accountName_word) (unquoted_of_word huser) hc.segs htext.symm
  refine ⟨p, c, l, hp, hc, ⟨x :: g :: u :: r, hsegs.symm⟩, ?_, hplace, htext⟩
  rw [hsegs]
  exact pairAt_append hx hg hu

namespace MatchedCut
variable {left right p : List Char} {c : Cut} {l : List (List Char)}
  (h : MatchedCut user left right p c l)
include h

theorem right_eq : right = '"' :: (closed (c.segs.drop l.length) ++ c.last) := by
  obtain ⟨r, hr⟩ := h.begins
  have htext := h.text
  rw [← hr, text_from h.place] at htext
  rw [List.append_cancel_left htext, ← hr, List.drop_left]

theorem block_eq : '{' :: (left ++ right ++ ['}']) = c.block p := by
  rw [h.text, Cut.block]
  simp

theorem reads : ∃ rest, ReadsPair sameFolded accountName user right rest := by
  obtain ⟨x, g, u, hsegs, hx, hg, hu⟩ := h.pair.split
  have hdrop : c.segs.drop l.length = x :: g :: u :: c.segs.drop (l.length + 3) := by
    have hlength : (c.segs.take l.length).length = l.length :=
      List.length_take_of_le h.begins.length_le
    have hcut : (c.segs.take l.length ++ x :: g :: u :: c.segs.drop (l.length + 3)).drop l.length =
        x :: g :: u :: c.segs.drop (l.length + 3) := List.drop_left' hlength
    rwa [← hsegs] at hcut
  refine ⟨closed (c.segs.drop (l.length + 3)) ++ c.last, (readsPair_iff sameFolded_quote).mpr
    ⟨x, g, u, hx, hg, hu, ?_⟩⟩
  rw [h.right_eq, hdrop]
  simp [quoted]

theorem head_right (t : List Char) : (right ++ t).head? ≠ some '{' := by
  rw [h.right_eq]
  simp

/-- The first match of the text is the first among the segments. -/
theorem noPairIn_iff (huser : ∀ c ∈ user, wordChar c = true) :
    NoPairIn sameFolded accountName user left right ↔ ∀ i < l.length, ¬ PairAt user c.segs i := by
  have hlength := congrArg List.length h.place
  simp only [List.length_append, List.length_cons, List.length_nil] at hlength
  constructor
  · intro hfirst i hi hpair
    obtain ⟨x, g, u, hsegs, hx, hg, hu⟩ := hpair.split
    obtain ⟨a, ha⟩ := exists_place p (c.segs.take i)
    obtain ⟨b, rest, hb, hread⟩ := @readsPair_segments c.last p _ accountName user sameFolded_quote a x g u
      _ (c.segs.drop (i + 3)) hx hg hu ha
    rw [← hsegs, ← h.text] at hb
    -- the pair begins before the match
    have htake : c.segs.take i = l.take i := by
      obtain ⟨r, hr⟩ := h.begins
      rw [← hr, List.take_append_of_le_length (Nat.le_of_lt hi)]
    have hlength' := congrArg List.length ha
    have hclosed := congrArg (List.length ∘ closed) (List.take_append_drop i l)
    have hrest : closed (l.drop i) ≠ [] := by
      rw [List.drop_eq_getElem_cons hi, closed_cons]
      simp
    have hpos := List.length_pos_of_ne_nil hrest
    simp only [List.length_append, List.length_cons, List.length_nil, htake, Function.comp_apply,
      closed_append] at hlength' hclosed
    have hlt : a.length < left.length := by omega
    rcases List.append_eq_append_iff.mp hb with ⟨m, rfl, -⟩ | ⟨m, rfl, rfl⟩
    · simp only [List.length_append] at hlt
      omega
    · refine hfirst a m rfl ?_ rest hread
      rintro rfl
      simp at hlt
  · rintro hnone a₁ a₂ rfl hne rest hread
    have htext : a₁ ++ (a₂ ++ right) = p ++ '"' :: (closed c.segs ++ c.last) := by
      rw [← h.text, List.append_assoc]
    obtain ⟨l', x, g, u, r, hsegs, hx, hg, hu, hplace⟩ := hread.segments h.cut.last h.unquoted
      sameFolded_quote (unquoted_of_word accountName_word) (unquoted_of_word huser) h.cut.segs htext.symm
    have hlength' := congrArg List.length hplace
    simp only [List.length_append, List.length_cons, List.length_nil] at hlength hlength'
    have hpos : 0 < a₂.length := List.length_pos_of_ne_nil hne
    refine hnone l'.length ?_ (hsegs ▸ pairAt_append hx hg hu)
    by_contra hge
    have hprefix : l <+: l' :=
      List.prefix_of_prefix_length_le h.begins ⟨_, hsegs.symm⟩ (Nat.le_of_not_lt hge)
    obtain ⟨m, rfl⟩ := hprefix
    rw [closed_append, List.length_append] at hlength'
    omega

theorem mem_left {d : Char} (hd : d ≠ '"') : d ∈ left ↔ d ∈ p ∨ ∃ s ∈ l, d ∈ s := by
  have hmem : d ∈ left ++ ['"'] ↔ d ∈ p ++ '"' :: closed l := by rw [h.place]
  rw [List.mem_append, List.mem_append, List.mem_cons, List.mem_cons, mem_closed hd] at hmem
  simpa [hd] using hmem

theorem mem_right {d : Char} (hd : d ≠ '"') :
    d ∈ right ↔ (∃ s ∈ c.segs.drop l.length, d ∈ s) ∨ d ∈ c.last := by
  rw [h.right_eq, List.mem_cons, List.mem_append, mem_closed hd]
  simp [hd]

end MatchedCut

include huser

/-- The first match of a file is the first in its block, when none stands before the block. -/
theorem noPairIn_braced {x1 left right y2 : List Char} :
    NoPairIn sameFolded accountName user (x1 ++ '{' :: left) (right ++ '}' :: y2) ↔
      NoPairIn sameFolded accountName user x1 [] ∧ NoPairIn sameFolded accountName user left right := by
  have hopening := sameFolded_pair huser (show wordChar '{' = false by decide) (by decide)
  have hclosing := sameFolded_pair huser (show wordChar '}' = false by decide) (by decide)
  constructor
  · intro h
    constructor
    · rintro a₁ a₂ rfl hne rest hread
      have hmore := hread.append ('{' :: (left ++ (right ++ '}' :: y2)))
      rw [List.append_nil] at hmore
      apply h a₁ (a₂ ++ '{' :: left) (List.append_assoc ..) (by simp)
      rwa [List.append_assoc, List.cons_append]
    · rintro a₁ a₂ rfl hne rest hread
      have hmore := hread.append ('}' :: y2)
      apply h (x1 ++ '{' :: a₁) a₂ (by simp) hne
      rwa [← List.append_assoc]
  · rintro ⟨hbefore, hinside⟩ a₁ a₂ hsplit hne rest hread
    rcases List.append_eq_append_iff.mp hsplit with ⟨m, rfl, hm⟩ | ⟨m, rfl, rfl⟩
    · cases m with
      | nil =>
        obtain rfl : '{' :: left = a₂ := hm
        obtain ⟨rest', hnil⟩ := @ReadsPair.before _ _ _ _ sameFolded_quote _ hopening (by decide) [] _ hread
        exact hnil.ne_nil rfl
      | cons c m =>
        obtain rfl : left = m ++ a₂ := (List.cons.inj hm).2
        rw [← List.append_assoc] at hread
        obtain ⟨rest', hread⟩ := hread.before sameFolded_quote hclosing (by decide)
        exact hinside m a₂ rfl hne rest' hread
    · rw [List.append_assoc, List.cons_append] at hread
      obtain ⟨rest', hread⟩ := hread.before sameFolded_quote hopening (by decide)
      refine hbefore a₁ m rfl hread.ne_nil rest' ?_
      rwa [List.append_nil]

end Blocks

/-- The text around the first match of a file that matches in a block, cut at the block's braces. -/
structure FirstMatch (user x1 left right p : List Char) (c : Cut) (l : List (List Char)) : Prop
    extends MatchedCut user left right p c l where
  before : NoPairIn sameFolded accountName user x1 []
  first : ∀ i < l.length, ¬ PairAt user c.segs i
  opening : '{' ∉ left
  closing : '}' ∉ right

section Files
variable {user : List Char} (huser : ∀ c ∈ user, wordChar c = true)
include huser

namespace FirstMatch
variable {x1 left right p : List Char} {c : Cut} {l : List (List Char)}
  (h : FirstMatch user x1 left right p c l) (y2 : List Char)
include h

theorem nameSearch_eq : nameSearch user (x1 ++ '{' :: (left ++ (right ++ '}' :: y2))) =
    some (some (x1 ++ '{' :: left).length) := by
  obtain ⟨rest, hread⟩ := h.reads
  have hinside := (h.noPairIn_iff huser).mpr h.first
  obtain ⟨x, hx, -⟩ := regexSearch_named_some (fun d hd => (sameFolded_quote d).mp hd)
    (hread.append ('}' :: y2)) ((noPairIn_braced huser).mpr ⟨h.before, hinside⟩)
  rw [Healing.nameSearch_eq huser, ← List.cons_append, ← List.append_assoc, hx, Option.map_some]

/-- The braces of the block cut it out. -/
theorem cutOut : CutOut user (x1 ++ '{' :: (left ++ (right ++ '}' :: y2))) x1 (left ++ right) y2 := by
  refine ⟨by simp, _, h.nameSearch_eq huser y2, rfind_append h.opening (h.head_right _), ?_⟩
  have hend := @find_append '}' (x1 ++ '{' :: left) right y2 h.closing
  simpa [Nat.add_assoc, Nat.add_comm 1] using hend

end FirstMatch

/-- Where a block is cut out the first match stands in it. -/
theorem exists_firstMatch {content before inner after : List Char}
    (h : CutOut user content before inner after) :
    ∃ left right p c l, inner = left ++ right ∧ FirstMatch user before left right p c l := by
  obtain ⟨pos, hsearch, hstart, hend⟩ := h.braces
  have hfound := hsearch
  rw [nameSearch_eq huser, Option.some.injEq, Option.map_eq_some_iff] at hfound
  obtain ⟨⟨pos', x⟩, hfound, hpos⟩ := hfound
  obtain rfl : pos' = pos := hpos
  have hquote : ∀ d, sameFolded '"' d = true → d = '"' := fun d hd => (sameFolded_quote d).mp hd
  obtain ⟨a, b, rfl, rfl, hread, hfirst⟩ := regexSearch_named_split hquote hfound
  have hhead : b.head? = some '"' := by
    obtain ⟨w, g, u, -, -, -, rfl⟩ := (readsPair_iff sameFolded_quote).mp hread
    simp [quoted]
  -- the braces stand on the two sides of the match
  have hopening : '{' ∈ a := by
    obtain ⟨hle, hat⟩ := rfind_some hstart
    rcases Nat.eq_or_lt_of_le hle with heq | hlt
    · rw [heq, List.getElem?_append_right (Nat.le_refl _), Nat.sub_self, ← List.head?_eq_getElem?,
        hhead] at hat
      cases hat
    · rw [List.getElem?_append_left hlt] at hat
      exact List.mem_of_getElem? hat
  have hclosing : '}' ∈ b := by
    obtain ⟨hle, hat⟩ := find_some hend
    rw [List.getElem?_append_right hle] at hat
    exact List.mem_of_getElem? hat
  obtain ⟨x1, left, rfl, hleft⟩ := exists_last hopening
  obtain ⟨right, y2, rfl, hright⟩ := List.eq_append_cons_of_mem hclosing
  have hcontent :
      (x1 ++ '{' :: left) ++ (right ++ '}' :: y2) = x1 ++ '{' :: (left ++ (right ++ '}' :: y2)) := by
    simp
  rw [hcontent] at h
  obtain ⟨hbefore, hinside⟩ := (noPairIn_braced huser).mp hfirst
  obtain ⟨rest, hread⟩ := hread.before sameFolded_quote (sameFolded_pair huser (by decide) (by decide))
    (by decide)
  obtain ⟨p, c, l, hmatch⟩ := @exists_matchedCut user huser left right rest hread
  have hfirstMatch : FirstMatch user x1 left right p c l :=
    ⟨hmatch, hbefore, (hmatch.noPairIn_iff huser).mp hinside, hleft, hright⟩
  obtain ⟨rfl, rfl, rfl⟩ := h.unique (hfirstMatch.cutOut huser y2)
  exact ⟨left, right, p, c, l, rfl, hfirstMatch⟩

end Files

end Disping.Healing
