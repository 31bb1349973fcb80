import Disping.Healing.LoginUsers
import Disping.Text.SegmentEdits

/-! # The edits of a block

The match and the braces next to it cut a block out of the file. The edits act on the segments between
the block's quotation marks, whatever the block holds.
-/
namespace Disping.Healing

open Text

/-! Searching for braces. -/

theorem rfind_eq_some {c : Char} {content : List Char} {i pos : ℕ} (hi : content[i]? = some c)
    (hle : i ≤ pos) (hlast : ∀ j, i < j → j ≤ pos → content[j]? ≠ some c) :
    rfind c content pos = some i := by
  induction pos with
  | zero =>
    obtain rfl := Nat.le_zero.mp hle
    rw [rfind, if_pos hi]
  | succ pos ih =>
    rw [rfind]
    rcases Nat.eq_or_lt_of_le hle with rfl | hlt
    · rw [if_pos hi]
    · rw [if_neg (hlast _ hlt (Nat.le_refl _))]
      exact ih (Nat.le_of_lt_succ hlt) fun j hj hle => hlast j hj (Nat.le_succ_of_le hle)

/-- The last occurrence at or before the end of `y`. -/
theorem rfind_append {c : Char} {x y z : List Char} (hy : c ∉ y) (hz : z.head? ≠ some c) :
    rfind c (x ++ c :: (y ++ z)) (x ++ c :: y).length = some x.length := by
  apply rfind_eq_some
  · simp
  · simp
  · intro j hj hle hat
    obtain ⟨k, rfl⟩ := Nat.exists_eq_add_of_lt hj
    have hk : k ≤ y.length := by
      simp only [List.length_append, List.length_cons] at hle
      omega
    have hget : (y ++ z)[k]? = some c := by
      rw [List.getElem?_append_right (by omega), show x.length + k + 1 - x.length = k + 1 by omega,
        List.getElem?_cons_succ] at hat
      exact hat
    rcases Nat.eq_or_lt_of_le hk with rfl | hlt
    · rw [List.getElem?_append_right (Nat.le_refl _), Nat.sub_self, ← List.head?_eq_getElem?] at hget
      exact hz hget
    · rw [List.getElem?_append_left hlt] at hget
      exact hy (List.mem_of_getElem? hget)

theorem find_append {c : Char} {x y z : List Char} (hy : c ∉ y) :
    find c (x ++ (y ++ c :: z)) x.length = some (x.length + y.length) := by
  have hnone : y.findIdx? (· == c) = none := by
    rw [List.findIdx?_eq_none_iff]
    intro d hd
    exact beq_eq_false_iff_ne.mpr fun h => hy (h ▸ hd)
  rw [find, List.drop_left, List.findIdx?_append, hnone]
  simp [List.findIdx?_cons]

/-- The last one of a character in a text. -/
theorem exists_last {c : Char} {a : List Char} (h : c ∈ a) : ∃ x y, a = x ++ c :: y ∧ c ∉ y := by
  obtain ⟨y, x, hsplit, hy⟩ := List.eq_append_cons_of_mem (List.mem_reverse.mpr h)
  refine ⟨x.reverse, y.reverse, ?_, by simpa using hy⟩
  rw [← List.reverse_reverse a, hsplit]
  simp

theorem rfind_some {c : Char} {content : List Char} {i pos : ℕ} (h : rfind c content pos = some i) :
    i ≤ pos ∧ content[i]? = some c := by
  induction pos with
  | zero =>
    rw [rfind] at h
    split at h
    · rename_i hat
      cases h
      exact ⟨Nat.le_refl 0, hat⟩
    · cases h
  | succ pos ih =>
    rw [rfind] at h
    split at h
    · rename_i hat
      cases h
      exact ⟨Nat.le_refl _, hat⟩
    · exact ⟨Nat.le_succ_of_le (ih h).1, (ih h).2⟩

theorem find_some {c : Char} {content : List Char} {i pos : ℕ} (h : find c content pos = some i) :
    pos ≤ i ∧ content[i]? = some c := by
  obtain ⟨k, hk, rfl⟩ := Option.map_eq_some_iff.mp h
  obtain ⟨hlt, hat, -⟩ := List.findIdx?_eq_some_iff_getElem.mp hk
  refine ⟨Nat.le_add_right .., ?_⟩
  rw [← List.getElem?_drop, List.getElem?_eq_getElem hlt, beq_iff_eq.mp hat]

/-- The braces that cut a block out of the file: the last one before the match and the first one after
it. -/
structure CutOut (user content before inner after : List Char) : Prop where
  text : content = before ++ '{' :: (inner ++ '}' :: after)
  braces : ∃ pos, nameSearch user content = some (some pos) ∧
    rfind '{' content pos = some before.length ∧
    find '}' content pos = some (before.length + 1 + inner.length)

/-- The function comes to no block: there is no match, or no brace on one of its sides. -/
def Uncut (user content : List Char) : Prop :=
  nameSearch user content = some none ∨ ∃ pos, nameSearch user content = some (some pos) ∧
    (rfind '{' content pos = none ∨ find '}' content pos = none)

section CutOut
variable {user content before inner after : List Char}

theorem repairAccount_uncut (h : Uncut user content) : repairAccount user content = some content := by
  unfold repairAccount
  rcases h with hsearch | ⟨pos, hsearch, hstart | hend⟩
  · simp only [hsearch, Option.bind_eq_bind, Option.bind_some]
  · simp only [hsearch, hstart, Option.bind_eq_bind, Option.bind_some]
  · simp only [hsearch, hend, Option.bind_eq_bind, Option.bind_some]
    cases rfind '{' content pos <;> rfl

/-- The block is cut out, edited and put back. -/
theorem CutOut.repairAccount_eq (h : CutOut user content before inner after) :
    repairAccount user content =
      (repairBlock ('{' :: (inner ++ ['}']))).map fun block => before ++ block ++ after := by
  obtain ⟨htext, pos, hsearch, hstart, hend⟩ := h
  have hblock : (content.drop before.length).take (before.length + 1 + inner.length - before.length + 1) =
      '{' :: (inner ++ ['}']) := by
    have hcut : content = before ++ (('{' :: (inner ++ ['}'])) ++ after) := by simp [htext]
    have hlength :
        before.length + 1 + inner.length - before.length + 1 = ('{' :: (inner ++ ['}'])).length := by
      simp only [List.length_cons, List.length_append, List.length_nil]
      omega
    rw [hlength, hcut, List.drop_left, List.take_left]
  have hbefore : content.take before.length = before := by rw [htext, List.take_left]
  have hafter : content.drop (before.length + 1 + inner.length + 1) = after := by
    have hcut : content = (before ++ ('{' :: (inner ++ ['}']))) ++ after := by simp [htext]
    have hlength : before.length + 1 + inner.length + 1 = (before ++ ('{' :: (inner ++ ['}']))).length := by
      simp only [List.length_cons, List.length_append, List.length_nil]
      omega
    rw [hlength, hcut, List.drop_left]
  have hlt : before.length < before.length + 1 + inner.length := by omega
  unfold repairAccount
  simp only [hsearch, hstart, hend, hlt, if_true, Option.bind_eq_bind, Option.bind_some, hblock, hbefore,
    hafter]
  cases repairBlock ('{' :: (inner ++ ['}'])) <;> rfl

/-- Where the name makes an expression, a block is cut out or none. -/
theorem cutOut_cases (h : nameSearch user content ≠ none) : Uncut user content ∨
    ∃ before inner after, CutOut user content before inner after := by
  obtain ⟨found, hsearch⟩ := Option.ne_none_iff_exists'.mp h
  cases found with
  | none => exact .inl (.inl hsearch)
  | some pos =>
    cases hstart : rfind '{' content pos with
    | none => exact .inl (.inr ⟨pos, hsearch, .inl hstart⟩)
    | some i =>
      cases hend : find '}' content pos with
      | none => exact .inl (.inr ⟨pos, hsearch, .inr hend⟩)
      | some j =>
        obtain ⟨hi, hopening⟩ := rfind_some hstart
        obtain ⟨hj, hclosing⟩ := find_some hend
        have hne : i ≠ j := by
          rintro rfl
          rw [hopening] at hclosing
          cases hclosing
        obtain ⟨hjl, hjc⟩ := List.getElem?_eq_some_iff.mp hclosing
        obtain ⟨hil, hic⟩ := List.getElem?_eq_some_iff.mp hopening
        let inner := (content.drop (i + 1)).take (j - i - 1)
        have hlength : inner.length = j - i - 1 := by
          rw [List.length_take, List.length_drop]
          omega
        have htail : content.drop (i + 1) = inner ++ '}' :: content.drop (j + 1) := by
          have hrest : (content.drop (i + 1)).drop (j - i - 1) = '}' :: content.drop (j + 1) := by
            rw [List.drop_drop, show i + 1 + (j - i - 1) = j by omega, List.drop_eq_getElem_cons hjl, hjc]
          rw [← hrest, List.take_append_drop]
        have hbefore : (content.take i).length = i := List.length_take_of_le (Nat.le_of_lt hil)
        refine .inr ⟨content.take i, inner, content.drop (j + 1), ?_, pos, hsearch, ?_, ?_⟩
        · rw [← htail, ← hic, ← List.drop_eq_getElem_cons hil, List.take_append_drop]
        · rw [hbefore, hstart]
        · rw [hbefore, hlength, hend, show i + 1 + (j - i - 1) = j by omega]

theorem CutOut.not_uncut (h : CutOut user content before inner after) : ¬ Uncut user content := by
  obtain ⟨-, pos, hsearch, hstart, hend⟩ := h
  rintro (hnone | ⟨pos', hsearch', hnone⟩)
  · rw [hsearch] at hnone
    cases hnone
  · rw [hsearch] at hsearch'
    cases hsearch'
    rw [hstart, hend] at hnone
    rcases hnone with hnone | hnone <;> cases hnone

/-- A file is cut in one way. -/
theorem CutOut.unique {before' inner' after' : List Char} (h : CutOut user content before inner after)
    (h' : CutOut user content before' inner' after') :
    before = before' ∧ inner = inner' ∧ after = after' := by
  obtain ⟨htext, pos, hsearch, hstart, hend⟩ := h
  obtain ⟨htext', pos', hsearch', hstart', hend'⟩ := h'
  rw [hsearch] at hsearch'
  cases hsearch'
  have hbefore := Option.some.inj (hstart.symm.trans hstart')
  have hinner := Option.some.inj (hend.symm.trans hend')
  obtain ⟨rfl, hrest⟩ := List.append_inj (htext.symm.trans htext') hbefore
  obtain ⟨rfl, hafter⟩ := List.append_inj (List.cons.inj hrest).2 (by omega)
  exact ⟨rfl, rfl, (List.cons.inj hafter).2⟩

end CutOut

/-! The edits. -/

theorem gap_tabs : Gap ['\t', '\t'] := .cons rfl (.cons rfl .nil)

theorem gap_lineTab : Gap ['\n', '\t'] := .cons rfl (.cons rfl .nil)

/-- A key whose pairs the compiled expression finds. -/
structure EditedKey (key : String) : Prop where
  compiles : regex (pairPattern key) false = some (pairExpression key.toList)
  word : KeyWord key.toList

theorem editedKey_mostRecent : EditedKey "MostRecent" where
  compiles := rfl
  word := ⟨by decide, 'M', "ostRecent".toList, by decide⟩

theorem editedKey_rememberPassword : EditedKey "RememberPassword" where
  compiles := rfl
  word := ⟨by decide, 'R', "ememberPassword".toList, by decide⟩

theorem editedKey_wantsOfflineMode : EditedKey "WantsOfflineMode" where
  compiles := rfl
  word := ⟨by decide, 'W', "antsOfflineMode".toList, by decide⟩

section Edits
variable {key value : String}

theorem insertPair_append (b : List Char) (e : Char) : insertPair key value (b ++ [e]) =
    b ++ (['\t', '\t'] ++ pairText key value ++ ['\n', '\t']) ++ [e] := by
  have hlength : (b ++ [e]).length - 1 = b.length := by simp
  rw [insertPair, hlength, List.take_left, List.drop_left]

end Edits

/-- The find-or-insert edit of a block. -/
def setOrInsert (key value : String) (block : List Char) : Option (List Char) :=
  if mentions key block then replacePair key value block else some (insertPair key value block)

theorem repairBlock_eq (block : List Char) : repairBlock block =
    (setOrInsert "MostRecent" "1" block).bind fun b =>
      (setOrInsert "RememberPassword" "1" b).bind fun b =>
        if mentions "WantsOfflineMode" b then replacePair "WantsOfflineMode" "0" b else some b := by
  have hedit : ∀ key value b (k : List Char → Option (List Char)),
      (if mentions key b then (replacePair key value b).bind k else k (insertPair key value b)) =
        (setOrInsert key value b).bind k := by
    intro key value b k
    unfold setOrInsert
    split <;> rfl
  unfold repairBlock
  simp only [Option.bind_eq_bind, Option.bind_some, hedit]

def mostRecent : List Char := "MostRecent".toList

def rememberPassword : List Char := "RememberPassword".toList

def wantsOfflineMode : List Char := "WantsOfflineMode".toList

def tabs : List Char := ['\t', '\t']

theorem gap_between : Gap (['\n', '\t'] ++ tabs) := .cons rfl (.cons rfl gap_tabs)

def voc : Vocabulary where
  keys := [mostRecent, rememberPassword, wantsOfflineMode]
  gap := tabs
  values := [['1'], ['0']]
  gap_space := gap_tabs
  keys_word := by decide
  values_word := by decide
  values_other := by decide

/-- A block's text behind its first quotation mark, up to the closing brace. -/
@[ext] structure Cut where
  segs : List (List Char)
  last : List Char

namespace Cut

/-- Every pair of the key with the value. -/
def set (key value : List Char) (c : Cut) : Cut := { c with segs := setSegments key tabs value c.segs }

def insert (key value : List Char) (c : Cut) : Cut where
  segs := c.segs ++ [c.last ++ tabs, key, tabs, value]
  last := ['\n', '\t']

def edit (key value : List Char) (c : Cut) : Cut :=
  if key ∈ c.segs then c.set key value else c.insert key value

def repaired (c : Cut) : Cut :=
  ((c.edit mostRecent ['1']).edit rememberPassword ['1']).set wantsOfflineMode ['0']

/-- The block, with the text before its first quotation mark. -/
def block (p : List Char) (c : Cut) : List Char := '{' :: (p ++ '"' :: (closed c.segs ++ (c.last ++ ['}'])))

/-- From segment `n` on the character is not there. -/
structure AvoidsFrom (n : ℕ) (d : Char) (c : Cut) : Prop where
  segs : ∀ i s, n ≤ i → c.segs[i]? = some s → d ∉ s
  last : d ∉ c.last

/-- A character that the edits do not write. -/
def Foreign (d : Char) : Prop :=
  d ∉ tabs ∧ d ∉ ['\n', '\t'] ∧ (∀ k ∈ voc.keys, d ∉ k) ∧ ∀ v ∈ voc.values, d ∉ v

instance : DecidablePred Foreign := fun _ => inferInstanceAs (Decidable (_ ∧ _))

section Operations
variable {c : Cut} {key value : List Char} (hv : value ∈ voc.values)
include hv

theorem edited_set (c : Cut) : voc.Edited [key] c.segs (c.set key value).segs :=
  Vocabulary.edited_setSegments (List.mem_singleton_self key) hv c.segs

theorem edited_edit (c : Cut) : voc.Edited [key] c.segs (c.edit key value).segs := by
  unfold edit
  split
  · exact edited_set hv c
  · exact .append _ _

variable {n : ℕ} {d : Char} (hd : Foreign d) (h : c.AvoidsFrom n d)
include hd h

theorem AvoidsFrom.set : (c.set key value).AvoidsFrom n d := by
  constructor
  · intro i s hi hs
    have hlength : (setSegments key tabs value c.segs).length = c.segs.length := length_setSegments _
    have hlt : i < c.segs.length := hlength ▸ (List.getElem?_eq_some_iff.mp hs).1
    obtain ⟨x, hx, hchange⟩ := (edited_set hv c).at_some hlt hs
    rcases hchange.old_or_new with rfl | rfl | hnew
    · exact h.segs i s hi hx
    · exact hd.1
    · exact hd.2.2.2 s hnew
  · exact h.last

theorem AvoidsFrom.insert (hk : key ∈ voc.keys) : (c.insert key value).AvoidsFrom n d := by
  constructor
  · intro i s hi hs
    rcases Nat.lt_or_ge i c.segs.length with hlt | hge
    · rw [Cut.insert, List.getElem?_append_left hlt] at hs
      exact h.segs i s hi hs
    · rw [Cut.insert, List.getElem?_append_right hge] at hs
      have hmem := List.mem_of_getElem? hs
      simp only [List.mem_cons, List.not_mem_nil, or_false] at hmem
      rcases hmem with rfl | rfl | rfl | rfl
      · rw [List.mem_append, not_or]
        exact ⟨h.last, hd.1⟩
      · exact hd.2.2.1 s hk
      · exact hd.1
      · exact hd.2.2.2 s hv
  · exact hd.2.1

theorem AvoidsFrom.edit (hk : key ∈ voc.keys) : (c.edit key value).AvoidsFrom n d := by
  unfold Cut.edit
  split
  · exact h.set hv hd
  · exact h.insert hv hd hk

end Operations

/-! The text of the edits. -/

/-- The cuts of texts. -/
def Unquoted (c : Cut) : Prop := c.AvoidsFrom 0 '"'

theorem Unquoted.segs {c : Cut} (h : c.Unquoted) : Text.Unquoted c.segs := by
  intro s hs
  obtain ⟨i, hi⟩ := List.mem_iff_getElem?.mp hs
  exact AvoidsFrom.segs h i s (Nat.zero_le i) hi

section Blocks
variable {c : Cut} {p : List Char} {key value : String} (hp : '"' ∉ p) (hc : c.Unquoted)

theorem insertPair_cut (p : List Char) (c : Cut) :
    insertPair key value (c.block p) = (c.insert key.toList value.toList).block p := by
  have hblock : c.block p = ('{' :: (p ++ '"' :: (closed c.segs ++ c.last))) ++ ['}'] := by simp [block]
  rw [hblock, insertPair_append]
  simp [block, Cut.insert, pairText, quoted, tabs]

include hp hc

theorem mentions_iff (hkey : '"' ∉ key.toList) : mentions key (c.block p) = true ↔ key.toList ∈ c.segs := by
  have hopen : '"' ∉ '{' :: p := by simp [hp]
  have hlast : '"' ∉ c.last ++ ['}'] := by simp [hc.last]
  rw [mentions, decide_eq_true_iff, block, ← List.cons_append, quoted_infix_append hopen,
    quoted_infix_segments hkey hlast hc.segs]

theorem replacePair_cut (hkey : EditedKey key) :
    replacePair key value (c.block p) = some ((c.set key.toList value.toList).block p) := by
  have hopen : '"' ∉ '{' :: p := by simp [hp]
  have hlast : '"' ∉ c.last ++ ['}'] := by simp [hc.last]
  rw [replacePair, hkey.compiles, Option.map_some, regexReplace, block, ← List.cons_append,
    replaceFrom_unquoted _ _ hopen, pairText, replaceFrom_segments hkey.word.unquoted hlast hc.segs]
  rfl

theorem setOrInsert_cut (hkey : EditedKey key) :
    setOrInsert key value (c.block p) = some ((c.edit key.toList value.toList).block p) := by
  have hmentions := mentions_iff hp hc hkey.word.unquoted
  unfold setOrInsert edit
  by_cases hin : key.toList ∈ c.segs
  · rw [if_pos (hmentions.mpr hin), if_pos hin, replacePair_cut hp hc hkey]
  · rw [if_neg fun hm => hin (hmentions.mp hm), if_neg hin, insertPair_cut]

end Blocks

theorem mem_keys : mostRecent ∈ voc.keys ∧ rememberPassword ∈ voc.keys ∧ wantsOfflineMode ∈ voc.keys := by
  decide

theorem mem_values : ['1'] ∈ voc.values ∧ ['0'] ∈ voc.values := by decide

theorem AvoidsFrom.repaired {c : Cut} {n : ℕ} {d : Char} (hd : Foreign d) (h : c.AvoidsFrom n d) :
    c.repaired.AvoidsFrom n d := by
  have hrecent := h.edit mem_values.1 hd mem_keys.1
  have hremember := hrecent.edit mem_values.1 hd mem_keys.2.1
  exact hremember.set mem_values.2 hd

theorem set_of_not_mem {c : Cut} {key : List Char} (value : List Char) (h : key ∉ c.segs) :
    c.set key value = c := by
  rw [set, setSegments_of_not_mem h]

/-- The edited block is the block of the edited segments. -/
theorem repairBlock_cut {c : Cut} {p : List Char} (hp : '"' ∉ p) (hc : c.Unquoted) :
    repairBlock (c.block p) = some (c.repaired.block p) := by
  have hd : Foreign '"' := by decide
  let c₁ := c.edit mostRecent ['1']
  let c₂ := c₁.edit rememberPassword ['1']
  have hc₁ : c₁.Unquoted := AvoidsFrom.edit mem_values.1 hd hc mem_keys.1
  have hc₂ : c₂.Unquoted := AvoidsFrom.edit mem_values.1 hd hc₁ mem_keys.2.1
  have hrecent : setOrInsert "MostRecent" "1" (c.block p) = some (c₁.block p) :=
    setOrInsert_cut hp hc editedKey_mostRecent
  have hremember : setOrInsert "RememberPassword" "1" (c₁.block p) = some (c₂.block p) :=
    setOrInsert_cut hp hc₁ editedKey_rememberPassword
  have hoffline : replacePair "WantsOfflineMode" "0" (c₂.block p) = some (c.repaired.block p) :=
    replacePair_cut hp hc₂ editedKey_wantsOfflineMode
  have hmentions : mentions "WantsOfflineMode" (c₂.block p) = true ↔ wantsOfflineMode ∈ c₂.segs :=
    mentions_iff hp hc₂ editedKey_wantsOfflineMode.word.unquoted
  rw [repairBlock_eq, hrecent, Option.bind_some, hremember, Option.bind_some]
  by_cases hin : wantsOfflineMode ∈ c₂.segs
  · rw [if_pos (hmentions.mpr hin), hoffline]
  · have hsame : c.repaired = c₂ := set_of_not_mem ['0'] hin
    rw [if_neg fun hm => hin (hmentions.mp hm), hsame]

end Cut

section Fresh
variable {inner : List Char}

/-- A block without strings gets both pairs. -/
def fresh : Cut where
  segs := [mostRecent, tabs, ['1'], ['\n', '\t'] ++ tabs, rememberPassword, tabs, ['1']]
  last := ['\n', '\t']

theorem insertPair_unquoted (key value : String) (inner : List Char) :
    insertPair key value ('{' :: (inner ++ ['}'])) =
      Cut.block (inner ++ tabs) ⟨[key.toList, tabs, value.toList], ['\n', '\t']⟩ := by
  rw [← List.cons_append, insertPair_append]
  simp [Cut.block, pairText, quoted, tabs]

theorem repairBlock_unquoted (hinner : '"' ∉ inner) :
    repairBlock ('{' :: (inner ++ ['}'])) = some (fresh.block (inner ++ tabs)) := by
  have hp : '"' ∉ inner ++ tabs := by simp [hinner, tabs]
  have hfirst : Cut.Unquoted ⟨[mostRecent, tabs, ['1']], ['\n', '\t']⟩ :=
    ⟨fun i s _ hs => (by decide : ∀ s ∈ [mostRecent, tabs, ['1']], '"' ∉ s) s (List.mem_of_getElem? hs),
      by decide⟩
  have hnone : mentions "MostRecent" ('{' :: (inner ++ ['}'])) = false := by
    rw [mentions, decide_eq_false_iff_not]
    intro hin
    have hmem : '"' ∈ '{' :: (inner ++ ['}']) := hin.subset List.mem_cons_self
    simp [hinner] at hmem
  have hrecent : setOrInsert "MostRecent" "1" ('{' :: (inner ++ ['}'])) =
      some (Cut.block (inner ++ tabs) ⟨[mostRecent, tabs, ['1']], ['\n', '\t']⟩) := by
    have hinsert : setOrInsert "MostRecent" "1" ('{' :: (inner ++ ['}'])) =
        some (insertPair "MostRecent" "1" ('{' :: (inner ++ ['}']))) := if_neg (Bool.eq_false_iff.mp hnone)
    rw [hinsert, insertPair_unquoted]
    rfl
  have hremember :
      setOrInsert "RememberPassword" "1"
          (Cut.block (inner ++ tabs) ⟨[mostRecent, tabs, ['1']], ['\n', '\t']⟩) =
        some (fresh.block (inner ++ tabs)) := Cut.setOrInsert_cut hp hfirst editedKey_rememberPassword
  have hoffline : mentions "WantsOfflineMode" (fresh.block (inner ++ tabs)) = false := by
    rw [← Bool.not_eq_true, Cut.mentions_iff hp _ editedKey_wantsOfflineMode.word.unquoted]
    · decide
    · exact Cut.AvoidsFrom.edit Cut.mem_values.1 (by decide) hfirst Cut.mem_keys.2.1
  rw [repairBlock_eq, hrecent, Option.bind_some, hremember, Option.bind_some]
  exact if_neg (Bool.eq_false_iff.mp hoffline)

end Fresh

/-- A text with a quotation mark, cut. -/
theorem exists_cut {t : List Char} (h : '"' ∈ t) :
    ∃ p c, '"' ∉ p ∧ Cut.Unquoted c ∧ t = p ++ '"' :: (closed c.segs ++ c.last) := by
  obtain ⟨p, t, rfl, hp⟩ := List.eq_append_cons_of_mem h
  obtain ⟨segs, last, hsegs, hlast, rfl⟩ := exists_segments t
  exact ⟨p, ⟨segs, last⟩, hp, ⟨fun i s _ hs => hsegs s (List.mem_of_getElem? hs), hlast⟩, rfl⟩

end Disping.Healing
