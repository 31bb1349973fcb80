import Disping.Healing.AccountMatch
import Disping.Healing.AccountRepair
import Disping.Text.SegmentMarks

/-! # Repairing once and repairing again

The healing runs at every start, so a second repair meets the file that the first one has written. It finds
nothing to do when no edit has written over a key that another edit, or the search for the name, looks for.
-/
namespace Disping.Healing

open Hive Text

/-- A second run leaves the file of the first one. -/
def RepairsOnce (calls : VdfCalls) (autoLoginUser : Option RegValue) (content : List Char) : Prop :=
  let once := (repairLoginUsersVdf calls autoLoginUser content).content
  (repairLoginUsersVdf calls autoLoginUser once).content = once

/-! What the edits write over. -/

/-- The segments of a block, with what the edits write over them. -/
@[ext] structure MarkedBlock where
  cells : List Cell
  last : List Char

namespace MarkedBlock

def of (c : Cut) : MarkedBlock := ⟨c.segs.map .kept, c.last⟩

def written (m : MarkedBlock) : Cut := ⟨m.cells.map Cell.written, m.last⟩

/-- Every pair of the key is marked with the value. -/
def set (key value : List Char) (m : MarkedBlock) : MarkedBlock :=
  { m with cells := markSegments key tabs value m.cells }

def insert (key value : List Char) (m : MarkedBlock) : MarkedBlock where
  cells := m.cells ++ [m.last ++ tabs, key, tabs, value].map .kept
  last := ['\n', '\t']

def edit (key value : List Char) (m : MarkedBlock) : MarkedBlock :=
  if m.written.segs.contains key then m.set key value else m.insert key value

def repaired (m : MarkedBlock) : MarkedBlock :=
  ((m.edit mostRecent ['1']).edit rememberPassword ['1']).set wantsOfflineMode ['0']

variable {m : MarkedBlock} {key value : List Char}

theorem map_written_kept (segs : List (List Char)) : (segs.map Cell.kept).map Cell.written = segs := by
  rw [List.map_map]
  exact List.map_id segs

theorem written_of (c : Cut) : (of c).written = c := Cut.ext (map_written_kept c.segs) rfl

theorem set_written (m : MarkedBlock) : (m.set key value).written = m.written.set key value :=
  Cut.ext (markSegments_written key tabs value m.cells) rfl

theorem insert_written (m : MarkedBlock) : (m.insert key value).written = m.written.insert key value := by
  refine Cut.ext ?_ rfl
  have happend :
      (m.cells ++ [m.last ++ tabs, key, tabs, value].map Cell.kept).map Cell.written =
        m.cells.map Cell.written ++ ([m.last ++ tabs, key, tabs, value].map Cell.kept).map Cell.written :=
    List.map_append
  rw [map_written_kept] at happend
  exact happend

theorem edit_written (m : MarkedBlock) : (m.edit key value).written = m.written.edit key value := by
  unfold edit Cut.edit
  by_cases hmem : key ∈ m.written.segs
  · rw [if_pos (List.contains_iff_mem.mpr hmem), if_pos hmem, set_written]
  · rw [if_neg (mt List.contains_iff_mem.mp hmem), if_neg hmem, insert_written]

theorem repaired_written (m : MarkedBlock) : m.repaired.written = m.written.repaired := by
  rw [repaired, set_written, edit_written, edit_written, Cut.repaired]

/-- What the edits write over segments. -/
def spelling : List (List Char) := tabs :: voc.values

theorem takes_set (hv : value ∈ voc.values) (h : ∀ c ∈ m.cells, c.Takes spelling) :
    ∀ c ∈ (m.set key value).cells, c.Takes spelling :=
  takes_markSegments List.mem_cons_self (List.mem_cons_of_mem _ hv) h

theorem takes_edit (hv : value ∈ voc.values) (h : ∀ c ∈ m.cells, c.Takes spelling) :
    ∀ c ∈ (m.edit key value).cells, c.Takes spelling := by
  unfold edit
  split
  · exact takes_set hv h
  · rw [insert, List.forall_mem_append, List.forall_mem_map]
    exact ⟨h, fun s _ => Cell.takes_kept spelling s⟩

theorem takes_repaired (c : Cut) : ∀ x ∈ (of c).repaired.cells, x.Takes spelling := by
  have hkept : ∀ x ∈ (of c).cells, x.Takes spelling := by
    rw [of, List.forall_mem_map]
    exact fun s _ => Cell.takes_kept spelling s
  exact takes_set Cut.mem_values.2 (takes_edit Cut.mem_values.1 (takes_edit Cut.mem_values.1 hkept))

theorem set_text (m : MarkedBlock) : (m.set key value).cells.map Cell.text = m.cells.map Cell.text :=
  markSegments_text key tabs value m.cells

theorem edit_text (m : MarkedBlock) : m.cells.map Cell.text <+: (m.edit key value).cells.map Cell.text := by
  unfold edit
  split
  · rw [set_text]
  · rw [insert, List.map_append]
    exact List.prefix_append _ _

/-- The cells spell the segments, and those that are inserted behind them. -/
theorem repaired_text (c : Cut) : c.segs <+: (of c).repaired.cells.map Cell.text := by
  have hof : (of c).cells.map Cell.text = c.segs := by
    rw [of, List.map_map]
    exact List.map_id c.segs
  rw [repaired, set_text, ← hof]
  exact (edit_text _).trans (edit_text _)

end MarkedBlock

/-- The block, with what the edits write over. -/
def Cut.marks (c : Cut) : MarkedBlock := (MarkedBlock.of c).repaired

theorem Cut.marks_written (c : Cut) : c.marks.written = c.repaired := by
  rw [marks, MarkedBlock.repaired_written, MarkedBlock.written_of]

/-- A MostRecent and a RememberPassword of the block, or inserted ones, are not written over, and no pair is
read that is not set. -/
structure Steady (c : Cut) : Prop where
  recent : .kept mostRecent ∈ c.marks.cells
  remember : .kept rememberPassword ∈ c.marks.cells
  recent_pairs : ∀ p ∈ readMarked mostRecent c.marks.cells, IsSet tabs ['1'] p
  remember_pairs : ∀ p ∈ readMarked rememberPassword c.marks.cells, IsSet tabs ['1'] p

theorem mem_repaired_iff {c : Cut} {key : List Char} (hkey : key ∉ MarkedBlock.spelling) :
    key ∈ c.repaired.segs ↔ .kept key ∈ c.marks.cells := by
  rw [← c.marks_written, MarkedBlock.written, List.mem_map]
  constructor
  · rintro ⟨x, hx, hread⟩
    rwa [← (Cell.written_eq_iff (MarkedBlock.takes_repaired c x hx) hkey).mp hread]
  · intro h
    exact ⟨_, h, rfl⟩

theorem settled_repaired_iff (c : Cut) : c.repaired.Settled ↔ Steady c := by
  have hrecent := @mem_repaired_iff c mostRecent (by decide)
  have hremember := @mem_repaired_iff c rememberPassword (by decide)
  have hsegs : c.repaired.segs = c.marks.cells.map Cell.written := by
    rw [← c.marks_written]
    rfl
  constructor
  · rintro ⟨h₁, h₂, h₃, h₄, -⟩
    rw [hsegs] at h₃ h₄
    exact ⟨hrecent.mp h₁, hremember.mp h₂, readPairs_written_iff.mp h₃, readPairs_written_iff.mp h₄⟩
  · rintro ⟨h₁, h₂, h₃, h₄⟩
    refine ⟨hrecent.mpr h₁, hremember.mpr h₂, ?_, ?_, ?_⟩
    · rw [hsegs]
      exact readPairs_written_iff.mpr h₃
    · rw [hsegs]
      exact readPairs_written_iff.mpr h₄
    · exact setSegments_eq_self_iff.mp (setSegments_idem gap_tabs _)

/-! The match. -/

namespace Cut

theorem edited_repaired (c : Cut) : voc.Edited voc.keys c.segs c.repaired.segs := by
  have hsingle : ∀ k ∈ voc.keys, ∀ k' ∈ [k], k' ∈ voc.keys := by
    intro k hk k' hk'
    rwa [List.mem_singleton.mp hk']
  have hrecent := (@edited_edit mostRecent _ mem_values.1 c).mono (hsingle _ mem_keys.1)
  have hremember := (@edited_edit rememberPassword _ mem_values.1 (c.edit mostRecent ['1'])).mono
    (hsingle _ mem_keys.2.1)
  have hoffline := (@edited_set wantsOfflineMode _ mem_values.2
    ((c.edit mostRecent ['1']).edit rememberPassword ['1'])).mono (hsingle _ mem_keys.2.2)
  exact (hrecent.trans (fun _ hk => hk) hremember).trans (fun _ hk => hk) hoffline

end Cut

/-- The segment is not written over. -/
def KeptAt (c : Cut) (i : ℕ) : Prop := ∀ x, c.marks.cells[i]? = some x → x.new = none

theorem keptAt_iff {c : Cut} {i : ℕ} {x : List Char} (hx : c.segs[i]? = some x)
    (hother : x ∉ MarkedBlock.spelling) : KeptAt c i ↔ c.repaired.segs[i]? = some x := by
  obtain ⟨rest, hrest⟩ := MarkedBlock.repaired_text c
  have hlt := (List.getElem?_eq_some_iff.mp hx).1
  have htext : (c.marks.cells.map Cell.text)[i]? = some x := by
    have hcells : c.segs ++ rest = c.marks.cells.map Cell.text := hrest
    rw [← hcells, List.getElem?_append_left hlt, hx]
  rw [List.getElem?_map, Option.map_eq_some_iff] at htext
  obtain ⟨cell, hcell, rfl⟩ := htext
  have hwritten : c.repaired.segs[i]? = some cell.written := by
    rw [← c.marks_written, MarkedBlock.written, List.getElem?_map, hcell, Option.map_some]
  have htakes := MarkedBlock.takes_repaired c cell (List.mem_of_getElem? hcell)
  rw [hwritten, Option.some_inj, Cell.written_eq_iff htakes hother, KeptAt]
  constructor
  · intro h
    exact Cell.ext rfl (h cell hcell)
  · intro h x hx
    obtain rfl := Option.some.inj (hcell.symm.trans hx)
    rw [h]
    rfl

section Kept
variable {user : List Char} (huser : ∀ c ∈ user, wordChar c = true) (hne : user ≠ [])
  {segs others : List (List Char)} (h : voc.Edited voc.keys segs others) {i : ℕ}
include huser hne h

/-- No edit makes a new pair of the name. -/
theorem PairAt.before_edit (hi : i + 2 < segs.length) (hpair : PairAt user others i) :
    PairAt user segs i := by
  obtain ⟨y, g, u, hy, hname, hg, hgap, hu, hspells⟩ := hpair
  obtain ⟨hyspace, hyvalue, hykey⟩ := accountName_spelled hname
  obtain ⟨x, hx, hchange⟩ := h.at_some (Nat.lt_of_add_right_lt hi) hy
  obtain ⟨b, hb, hchange₁⟩ := h.at_some (Nat.lt_of_succ_lt hi) hg
  obtain ⟨v, hv, hchange₂⟩ := h.at_some hi hu
  have hsame : y = x := by
    rcases hchange.old_or_new with hsame | rfl | hnew
    · exact hsame
    · exact absurd voc.gap_space hyspace
    · exact absurd hnew hyvalue
  subst hsame
  have hsame₂ : u = v := by
    rcases hchange₂ with hsame | ⟨-, rfl, -⟩ | ⟨-, j, hj, ⟨k, hk, hat⟩, -⟩
    · exact hsame
    · exact absurd voc.gap_space (not_gap_of_spells huser hne hspells)
    · obtain rfl : i = j := Nat.add_right_cancel hj
      rw [hx] at hat
      exact absurd (Option.some.inj hat ▸ hk) hykey
  subst hsame₂
  exact ⟨y, b, u, hx, hname, hb, hchange₁.gap hgap, hv, hspells⟩

/-- The pair of the name stays where its key does. -/
theorem PairAt.after_edit (hpair : PairAt user segs i) (hkept : others[i]? = segs[i]?) :
    PairAt user others i := by
  obtain ⟨x, g, u, hx, hname, hg, hgap, hu, hspells⟩ := hpair
  obtain ⟨hxspace, hxvalue, hxkey⟩ := accountName_spelled hname
  obtain ⟨b, hb, hchange₁⟩ := h (i + 1) g hg
  obtain ⟨v, hv, hchange₂⟩ := h (i + 2) u hu
  have hbgap : Gap b := by
    rcases hchange₁ with rfl | ⟨-, rfl, -⟩ | ⟨-, j, hj, -, w, hw, hwgap⟩
    · exact hgap
    · exact voc.gap_space
    · obtain rfl : i = j + 1 := Nat.succ.inj hj
      rw [hx] at hw
      exact absurd (Option.some.inj hw ▸ hwgap) hxspace
  have hsame₂ : v = u := by
    rcases hchange₂ with hsame | ⟨hspace, -⟩ | ⟨-, j, hj, ⟨k, hk, hat⟩, -⟩
    · exact hsame
    · exact absurd hspace (not_gap_of_spells huser hne hspells)
    · obtain rfl : i = j := Nat.add_right_cancel hj
      rw [hx] at hat
      exact absurd (Option.some.inj hat ▸ hk) hxkey
  subst hsame₂
  exact ⟨x, b, v, hkept.trans hx, hname, hb, hbgap, hv, hspells⟩

end Kept

/-- The first pair of the name among the segments. -/
def FirstPair (user : List Char) (segs : List (List Char)) (i : ℕ) : Prop :=
  PairAt user segs i ∧ ∀ j < i, ¬ PairAt user segs j

theorem FirstPair.unique {user : List Char} {segs : List (List Char)} {i j : ℕ} (h : FirstPair user segs i)
    (h' : FirstPair user segs j) : i = j := by
  rcases Nat.lt_trichotomy i j with hlt | heq | hlt
  · exact absurd h.1 (h'.2 i hlt)
  · exact heq
  · exact absurd h'.1 (h.2 j hlt)

namespace MatchedCut
variable {user left right p : List Char} {c : Cut} {l : List (List Char)}
  (h : MatchedCut user left right p c l)
include h

/-- The edited block is matched in the same place. -/
theorem repaired (huser : ∀ c ∈ user, wordChar c = true) (hne : user ≠ []) (hkept : KeptAt c l.length) :
    ∃ left' right' l', MatchedCut user left' right' p c.repaired l' ∧ l'.length = l.length := by
  have hedited := c.edited_repaired
  obtain ⟨x, g, u, hx, hname, -⟩ := h.pair
  obtain ⟨hxspace, hxvalue, -⟩ := accountName_spelled hname
  have hother : x ∉ MarkedBlock.spelling := by
    rw [MarkedBlock.spelling, List.mem_cons, not_or]
    exact ⟨fun heq => hxspace (heq ▸ gap_tabs), hxvalue⟩
  have hpair := h.pair.after_edit huser hne hedited (((keptAt_iff hx hother).mp hkept).trans hx.symm)
  have hlength : (c.repaired.segs.take l.length).length = l.length :=
    List.length_take_of_le (Nat.le_trans h.begins.length_le hedited.length_le)
  obtain ⟨left', hplace⟩ := exists_place p (c.repaired.segs.take l.length)
  have htext := @text_from left' p c.repaired.last _ hplace (c.repaired.segs.drop l.length)
  rw [List.take_append_drop] at htext
  have hquoted : Cut.Unquoted c.repaired := Cut.AvoidsFrom.repaired (by decide) h.cut
  refine ⟨left', _, _, ⟨h.unquoted, hquoted, List.take_prefix .., ?_, hplace, htext.symm⟩, hlength⟩
  rwa [hlength]

section Braces
variable {left' right' : List Char} {l' : List (List Char)} {d : Char}
  (h' : MatchedCut user left' right' p c.repaired l') (hlength : l'.length = l.length)
  (hforeign : Cut.Foreign d) (hd : d ≠ '"')
include h' hlength hforeign hd

theorem not_mem_left (hleft : d ∉ left) : d ∉ left' := by
  rw [h.mem_left hd, not_or] at hleft
  rw [h'.mem_left hd, not_or]
  refine ⟨hleft.1, ?_⟩
  rintro ⟨s, hs, hmem⟩
  obtain ⟨i, hi⟩ := List.mem_iff_getElem?.mp hs
  have hlt : i < l.length := hlength ▸ (List.getElem?_eq_some_iff.mp hi).1
  have hat : c.repaired.segs[i]? = some s := by
    obtain ⟨r, hr⟩ := h'.begins
    rw [← hr, List.getElem?_append_left (hlength ▸ hlt), hi]
  obtain ⟨x, hx, hchange⟩ := c.edited_repaired.at_some (Nat.lt_of_lt_of_le hlt h.begins.length_le) hat
  rcases hchange.old_or_new with rfl | rfl | hnew
  · obtain ⟨r, hr⟩ := h.begins
    rw [← hr, List.getElem?_append_left hlt] at hx
    exact hleft.2 ⟨s, List.mem_of_getElem? hx, hmem⟩
  · exact hforeign.1 hmem
  · exact hforeign.2.2.2 s hnew hmem

theorem not_mem_right (hright : d ∉ right) : d ∉ right' := by
  rw [h.mem_right hd, not_or] at hright
  rw [h'.mem_right hd, not_or]
  have havoids : c.AvoidsFrom l.length d := by
    refine ⟨fun i s hi hs hmem => hright.1 ⟨s, ?_, hmem⟩, hright.2⟩
    apply List.mem_of_getElem? (i := i - l.length)
    rw [List.getElem?_drop, Nat.add_sub_cancel' hi, hs]
  have hrepaired := havoids.repaired hforeign
  refine ⟨?_, hrepaired.last⟩
  rintro ⟨s, hs, hmem⟩
  obtain ⟨i, hi⟩ := List.mem_iff_getElem?.mp hs
  rw [List.getElem?_drop] at hi
  exact hrepaired.segs _ s (by omega) hi hmem

end Braces

end MatchedCut

namespace FirstMatch
variable {user x1 left right p : List Char} {c : Cut} {l : List (List Char)}
  (h : FirstMatch user x1 left right p c l)
include h

theorem firstPair : FirstPair user c.segs l.length := ⟨h.pair, h.first⟩

theorem repaired (huser : ∀ c ∈ user, wordChar c = true) (hne : user ≠ []) (hkept : KeptAt c l.length) :
    ∃ left' right' l', FirstMatch user x1 left' right' p c.repaired l' := by
  obtain ⟨left', right', l', h', hlength⟩ := h.toMatchedCut.repaired huser hne hkept
  refine ⟨left', right', l', h', h.before, ?_, ?_, ?_⟩
  · -- the edited block holds no earlier match
    intro i hi hpair
    obtain ⟨-, -, u, -, -, -, -, hu, -⟩ := h.pair
    have hlong : l.length + 2 < c.segs.length := (List.getElem?_eq_some_iff.mp hu).1
    exact h.first i (hlength ▸ hi) (hpair.before_edit huser hne c.edited_repaired (by omega))
  · exact h.not_mem_left h' hlength (by decide) (by decide) h.opening
  · exact h.not_mem_right h' hlength (by decide) (by decide) h.closing

/-- The second repair meets the block that the first one has edited. -/
theorem unedited_repaired_iff (huser : ∀ c ∈ user, wordChar c = true) (hne : user ≠ [])
    (hkept : KeptAt c l.length) (y2 : List Char) :
    Unedited user (x1 ++ c.repaired.block p ++ y2) ↔ Steady c := by
  obtain ⟨left', right', l', h'⟩ := h.repaired huser hne hkept
  have hnew : x1 ++ '{' :: (left' ++ (right' ++ '}' :: y2)) = x1 ++ c.repaired.block p ++ y2 := by
    rw [← h'.block_eq]
    simp
  have hcut := h'.cutOut huser y2
  rw [hnew] at hcut
  have hsettled : SettledText (left' ++ right') ↔ Steady c := by
    rw [h'.text, settledText_cut h'.unquoted h'.cut, settled_repaired_iff]
  constructor
  · rintro (huncut | ⟨before, inner, after, hother, hinner⟩)
    · exact absurd huncut hcut.not_uncut
    · obtain ⟨-, rfl, -⟩ := hcut.unique hother
      exact hsettled.mp hinner
  · intro hsteady
    exact .inr ⟨x1, left' ++ right', y2, hcut, hsettled.mpr hsteady⟩

end FirstMatch

/-- A block that is cut out, and its segments. -/
structure BlockAt (user content before p : List Char) (c : Cut) (after : List Char) : Prop where
  cutOut : CutOut user content before (p ++ '"' :: (closed c.segs ++ c.last)) after
  unquoted : '"' ∉ p
  cut : c.Unquoted

/-- The block of the match is steady. Where the name of the match is written over, the name stands nowhere
else in what is left of the file, or where there is nothing to repair. -/
def Repeatable (user content : List Char) : Prop :=
  ∀ before p c after i, BlockAt user content before p c after → FirstPair user c.segs i →
    (KeptAt c i → Steady c) ∧
      (¬ KeptAt c i → Unedited user (before ++ c.marks.written.block p ++ after))

theorem exists_blockAt {user content before inner after : List Char} (huser : ∀ c ∈ user, wordChar c = true)
    (h : CutOut user content before inner after) :
    ∃ left right p c l, BlockAt user content before p c after ∧ FirstMatch user before left right p c l := by
  obtain ⟨left, right, p, c, l, rfl, hmatch⟩ := exists_firstMatch huser h
  rw [hmatch.text] at h
  exact ⟨left, right, p, c, l, ⟨h, hmatch.unquoted, hmatch.cut⟩, hmatch⟩

theorem BlockAt.unique {user content before p after before' p' after' : List Char} {c c' : Cut}
    (h : BlockAt user content before p c after) (h' : BlockAt user content before' p' c' after') :
    before = before' ∧ p = p' ∧ c = c' ∧ after = after' := by
  obtain ⟨rfl, hinner, rfl⟩ := h.cutOut.unique h'.cutOut
  obtain ⟨rfl, rfl⟩ := cut_unique h.unquoted h'.unquoted h.cut h'.cut hinner
  exact ⟨rfl, rfl, rfl, rfl⟩

theorem BlockAt.repairAccount_eq {user content before p after : List Char} {c : Cut}
    (h : BlockAt user content before p c after) :
    repairAccount user content = some (before ++ c.repaired.block p ++ after) := by
  have hblock : '{' :: ((p ++ '"' :: (closed c.segs ++ c.last)) ++ ['}']) = c.block p := by simp [Cut.block]
  rw [h.cutOut.repairAccount_eq, hblock, Cut.repairBlock_cut h.unquoted h.cut, Option.map_some]

theorem nameSearch_ne_none {user : List Char} (huser : ∀ c ∈ user, wordChar c = true) (content : List Char) :
    nameSearch user content ≠ none := by
  rw [nameSearch_eq huser]
  exact Option.some_ne_none _

/-- With a name: the second repair leaves the file of the first. -/
theorem repairAccount_again_iff {user content : List Char} (huser : ∀ c ∈ user, wordChar c = true)
    (hne : user ≠ []) : (∃ new, repairAccount user content = some new ∧ repairAccount user new = some new) ↔
      Repeatable user content := by
  rcases cutOut_cases (nameSearch_ne_none huser content) with huncut | ⟨before, inner, after, hcut⟩
  · refine iff_of_true ⟨content, repairAccount_uncut huncut, repairAccount_uncut huncut⟩ ?_
    intro before p c after i hblock
    exact absurd huncut hblock.cutOut.not_uncut
  · obtain ⟨left, right, p, c, l, hblock, hmatch⟩ := exists_blockAt huser hcut
    have hagain : (∃ new, repairAccount user content = some new ∧ repairAccount user new = some new) ↔
        Unedited user (before ++ c.repaired.block p ++ after) := by
      rw [← repairAccount_eq_self_iff]
      constructor
      · rintro ⟨new, hrun, hnew⟩
        rw [hblock.repairAccount_eq, Option.some_inj] at hrun
        rwa [hrun]
      · exact fun h => ⟨_, hblock.repairAccount_eq, h⟩
    rw [hagain]
    constructor
    · intro h before' p' c' after' i hblock' hpair
      obtain ⟨rfl, rfl, rfl, rfl⟩ := hblock.unique hblock'
      obtain rfl := hmatch.firstPair.unique hpair
      rw [c.marks_written]
      exact ⟨fun hkept => (hmatch.unedited_repaired_iff huser hne hkept after).mp h, fun _ => h⟩
    · intro h
      obtain ⟨hkept, hlost⟩ := h before p c after l.length hblock hmatch.firstPair
      rw [c.marks_written] at hlost
      by_cases hat : KeptAt c l.length
      · exact (hmatch.unedited_repaired_iff huser hne hat after).mpr (hkept hat)
      · exact hlost hat

/-! Without a name. -/

theorem repairFirst_again (content : List Char) :
    ∃ new, repairFirst content = some new ∧ repairFirst new = some new := by
  by_cases hspelled : SpelledOut content
  · exact ⟨content, repairFirst_spelledOut hspelled, repairFirst_spelledOut hspelled⟩
  cases hsearch : regexSearch (namedExpression (· == ·) mostRecent ['0']) content with
  | none =>
    have hrun : repairFirst content = some content := by
      unfold SpelledOut at hspelled
      rw [repairFirst, if_neg hspelled, regex_firstPattern, Option.map_some, hsearch]
    exact ⟨content, hrun, hrun⟩
  | some found =>
    refine ⟨_, ?_, repairFirst_spelledOut (.inl (List.infix_append (content.take found.1) _ found.2.rest))⟩
    unfold SpelledOut at hspelled
    rw [repairFirst, if_neg hspelled, regex_firstPattern, Option.map_some, hsearch]

/-! Both runs. -/

section Runs
variable {calls : VdfCalls} {autoLoginUser : Option RegValue} {content : List Char}
  (huser : ∀ c ∈ autoUserOf autoLoginUser, wordChar c = true)
include huser

theorem exists_repairedContent (content : List Char) :
    ∃ new, repairedContent (autoUserOf autoLoginUser) content = some new := by
  unfold repairedContent
  split
  · rcases cutOut_cases (nameSearch_ne_none huser content) with huncut | ⟨before, inner, after, hcut⟩
    · exact ⟨content, repairAccount_uncut huncut⟩
    · obtain ⟨left, right, p, c, l, hblock, -⟩ := exists_blockAt huser hcut
      exact ⟨_, hblock.repairAccount_eq⟩
  · obtain ⟨new, hrun, -⟩ := repairFirst_again content
    exact ⟨new, hrun⟩

end Runs

/-- A file that is not open to the repair stays. -/
theorem content_closed {calls : VdfCalls} {autoLoginUser : Option RegValue} {content : List Char}
    (h : content ≠ [] → ¬ (calls.readable = true ∧ calls.writable = true)) :
    (repairLoginUsersVdf calls autoLoginUser content).content = content := by
  obtain ⟨readable, writable⟩ := calls
  dsimp only at h
  unfold repairLoginUsersVdf repairLoginUsersFile
  by_cases hcontent : content = []
  · simp [hcontent]
  · cases readable with
    | false => rfl
    | true =>
      obtain rfl : writable = false := by simpa using h hcontent
      simp only [hcontent, writeFile]
      cases repairedContent (autoUserOf autoLoginUser) content <;> rfl

theorem content_open {autoLoginUser : Option RegValue} {content new : List Char} (hcontent : content ≠ [])
    (hnew : repairedContent (autoUserOf autoLoginUser) content = some new) :
    (repairLoginUsersVdf ⟨true, true⟩ autoLoginUser content).content = new := by
  rw [repairLoginUsersVdf_written hcontent hnew]

theorem repairAccount_ne_nil {user content new : List Char} (huser : ∀ c ∈ user, wordChar c = true)
    (hcontent : content ≠ []) (hnew : repairAccount user content = some new) : new ≠ [] := by
  rcases cutOut_cases (nameSearch_ne_none huser content) with huncut | ⟨before, inner, after, hcut⟩
  · rw [repairAccount_uncut huncut, Option.some_inj] at hnew
    exact hnew ▸ hcontent
  · obtain ⟨left, right, p, c, l, hblock, -⟩ := exists_blockAt huser hcut
    rw [hblock.repairAccount_eq, Option.some_inj] at hnew
    rw [← hnew]
    simp [Cut.block]

/-- A file that is open to the repair, for a name, is repeatable. -/
def Repeats (calls : VdfCalls) (autoUser content : List Char) : Prop :=
  calls.readable = true → calls.writable = true → autoUser ≠ [] → Repeatable autoUser content

theorem repeatable_nil (user : List Char) : Repeatable user [] := by
  intro before p c after i hblock
  have htext := hblock.cutOut.text
  simp at htext

section Open
variable {autoLoginUser : Option RegValue} {content : List Char}

theorem repairsOnce_noName (hname : autoUserOf autoLoginUser = []) (hcontent : content ≠ []) :
    RepairsOnce ⟨true, true⟩ autoLoginUser content := by
  obtain ⟨new, hrun, hagain⟩ := repairFirst_again content
  have hread : ∀ content, repairedContent (autoUserOf autoLoginUser) content = repairFirst content := by
    intro content
    rw [repairedContent, if_neg (not_not.mpr hname)]
  have honce := content_open hcontent ((hread content).trans hrun)
  unfold RepairsOnce
  dsimp only
  rw [honce]
  by_cases hnew : new = []
  · exact content_closed fun hne => absurd hnew hne
  · exact content_open hnew ((hread new).trans hagain)

theorem repairsOnce_named (huser : ∀ c ∈ autoUserOf autoLoginUser, wordChar c = true)
    (hname : autoUserOf autoLoginUser ≠ []) (hcontent : content ≠ []) :
    RepairsOnce ⟨true, true⟩ autoLoginUser content ↔ Repeatable (autoUserOf autoLoginUser) content := by
  have hread : ∀ content, repairedContent (autoUserOf autoLoginUser) content =
      repairAccount (autoUserOf autoLoginUser) content := fun content => if_pos hname
  obtain ⟨new, hnew⟩ := exists_repairedContent huser content
  have honce := content_open hcontent hnew
  rw [hread] at hnew
  have hne := repairAccount_ne_nil huser hcontent hnew
  obtain ⟨again, hagain⟩ := exists_repairedContent huser new
  have htwice := content_open hne hagain
  rw [hread] at hagain
  unfold RepairsOnce
  dsimp only
  rw [honce, htwice, ← repairAccount_again_iff huser hname]
  constructor
  · rintro rfl
    exact ⟨again, hnew, hagain⟩
  · rintro ⟨new', hrun, hsame⟩
    obtain rfl := Option.some.inj (hnew.symm.trans hrun)
    exact Option.some.inj (hagain.symm.trans hsame)

end Open

theorem repairsOnce_of_closed {calls : VdfCalls} {autoLoginUser : Option RegValue} {content : List Char}
    (hclosed : content ≠ [] → ¬ (calls.readable = true ∧ calls.writable = true)) :
    RepairsOnce calls autoLoginUser content := by
  have honce := @content_closed _ autoLoginUser _ hclosed
  unfold RepairsOnce
  dsimp only
  rw [honce, honce]

section Calls
variable (calls : VdfCalls) {autoLoginUser : Option RegValue} {content : List Char}
  (huser : ∀ c ∈ autoUserOf autoLoginUser, wordChar c = true)
include huser

theorem repairsOnce_of_repeats (h : Repeats calls (autoUserOf autoLoginUser) content) :
    RepairsOnce calls autoLoginUser content := by
  by_cases hclosed : content ≠ [] → ¬ (calls.readable = true ∧ calls.writable = true)
  · exact repairsOnce_of_closed hclosed
  rw [not_forall, not_not] at hclosed
  obtain ⟨hcontent, hopen⟩ := hclosed
  obtain ⟨readable, writable⟩ := calls
  obtain ⟨rfl, rfl⟩ : readable = true ∧ writable = true := hopen
  by_cases hname : autoUserOf autoLoginUser = []
  · exact repairsOnce_noName hname hcontent
  · exact (repairsOnce_named huser hname hcontent).mpr (h rfl rfl hname)

end Calls

/-- An account with a value that is a key, and written over as one. -/
def twiceCut : Cut where
  segs := ["AccountName".toList, [' '], "bob".toList, [' '], rememberPassword, [' '], rememberPassword, [' '],
    mostRecent, [' '], ['1']]
  last := []

def twiceText : List Char :=
  "\"users\"\x7b\"7\"".toList ++ '\x7b' :: (([] ++ '"' :: (closed twiceCut.segs ++ twiceCut.last)) ++
    '\x7d' :: ['\x7d'])

theorem blockAt_twice : BlockAt "bob".toList twiceText "\"users\"\x7b\"7\"".toList [] twiceCut ['\x7d'] where
  cutOut := ⟨rfl, 12, by decide, by decide, by decide⟩
  unquoted := List.not_mem_nil
  cut := ⟨fun i s _ hs => (by decide : ∀ s ∈ twiceCut.segs, '"' ∉ s) s (List.mem_of_getElem? hs),
    List.not_mem_nil⟩

theorem firstPair_twice : FirstPair "bob".toList twiceCut.segs 0 := by
  have hspells : ∀ w : List Char, Spells sameFolded w w := fun w =>
    List.forall₂_same.mpr fun c _ => beq_self_eq_true c.toLower
  exact ⟨⟨"AccountName".toList, [' '], "bob".toList, rfl, hspells _, rfl, by decide, rfl, hspells _⟩,
    fun j hj => absurd hj (Nat.not_lt_zero j)⟩

theorem steady_twice : Steady twiceCut := by
  constructor <;> decide

theorem repeatable_twice : Repeatable "bob".toList twiceText := by
  intro before p c after i hblock hpair
  obtain ⟨rfl, rfl, rfl, rfl⟩ := blockAt_twice.unique hblock
  obtain rfl := firstPair_twice.unique hpair
  have hkept : KeptAt twiceCut 0 := by
    intro x hx
    obtain rfl : .kept "AccountName".toList = x := Option.some.inj hx
    rfl
  exact ⟨fun _ => steady_twice, fun hlost => absurd hkept hlost⟩

/-- An account whose persona name is a key that the repair sets. -/
def offlineText : List Char :=
  ("\"users\"\x7b\"7\"\x7b\"AccountName\" \"bob\" \"PersonaName\" \"WantsOfflineMode\" " ++
    "\"RememberPassword\" \"1\" \"MostRecent\" \"1\"\x7d\x7d").toList

end Disping.Healing
