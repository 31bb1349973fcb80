import Disping.Healing.BlockEdits

/-! # What the repair leaves as it is

A block stays when both keys stand in it and every pair that the three expressions read is spelled as the
edits spell it.
-/
namespace Disping.Healing

open Text

namespace Cut

/-- A block that the edits leave as it is. -/
structure Settled (c : Cut) : Prop where
  mem_recent : mostRecent ∈ c.segs
  mem_remember : rememberPassword ∈ c.segs
  recent : ∀ p ∈ readPairs mostRecent c.segs, p = (tabs, ['1'])
  remember : ∀ p ∈ readPairs rememberPassword c.segs, p = (tabs, ['1'])
  offline : ∀ p ∈ readPairs wantsOfflineMode c.segs, p = (tabs, ['0'])

section Edits
variable {c : Cut} {key value : List Char}

theorem edit_of_settled (hmem : key ∈ c.segs) (h : ∀ p ∈ readPairs key c.segs, p = (tabs, value)) :
    c.edit key value = c := by
  rw [edit, if_pos hmem, set, setSegments_eq_self_iff.mpr h]

theorem Settled.repaired_eq (h : c.Settled) : c.repaired = c := by
  rw [repaired, edit_of_settled h.mem_recent h.recent, edit_of_settled h.mem_remember h.remember, set,
    setSegments_eq_self_iff.mpr h.offline]

theorem length_set : (c.set key value).segs.length = c.segs.length := length_setSegments c.segs

theorem length_edit (c : Cut) (key value : List Char) : (c.edit key value).segs.length =
    c.segs.length + if key ∈ c.segs then 0 else 4 := by
  unfold edit
  split
  · exact length_set
  · exact List.length_append

theorem length_repaired_eq (h : c.repaired.segs.length = c.segs.length) :
    mostRecent ∈ c.segs ∧ rememberPassword ∈ (c.edit mostRecent ['1']).segs := by
  have hlength :
      c.repaired.segs.length = ((c.edit mostRecent ['1']).edit rememberPassword ['1']).segs.length :=
    length_set
  rw [hlength, length_edit, length_edit] at h
  constructor
  · by_contra hnot
    rw [if_neg hnot] at h
    omega
  · by_contra hnot
    rw [if_neg hnot] at h
    omega

theorem settled_iff : c.repaired = c ↔ c.Settled := by
  refine ⟨fun h => ?_, Settled.repaired_eq⟩
  obtain ⟨hrecent, hremember⟩ := length_repaired_eq (congrArg (fun c => c.segs.length) h)
  have hin : ∀ key ∈ voc.keys, ∀ k ∈ [key], k ∈ voc.keys := by
    intro key hkey k hk
    rwa [List.mem_singleton.mp hk]
  have hkeys := mem_keys
  have hfirst : c.edit mostRecent ['1'] = c.set mostRecent ['1'] := if_pos hrecent
  rw [hfirst] at hremember
  have hsecond : (c.set mostRecent ['1']).edit rememberPassword ['1'] =
      (c.set mostRecent ['1']).set rememberPassword ['1'] := if_pos hremember
  rw [repaired, hfirst, hsecond] at h
  -- each edit would have to be undone by the later ones, which read other keys
  have hset : ∀ {c : Cut} {key : List Char}, voc.Edited [key] c.segs (c.set key ['1']).segs :=
    edited_set mem_values.1 _
  have hoffline : voc.Edited [wantsOfflineMode] ((c.set mostRecent ['1']).set rememberPassword ['1']).segs
      c.segs := by
    have hedited := @edited_set wantsOfflineMode _ mem_values.2
      ((c.set mostRecent ['1']).set rememberPassword ['1'])
    rwa [h] at hedited
  have hboth : voc.Edited [rememberPassword, wantsOfflineMode] (c.set mostRecent ['1']).segs c.segs := by
    have hmono : ∀ k ∈ [rememberPassword], k ∈ [rememberPassword, wantsOfflineMode] := by decide
    have hmono' : ∀ k ∈ [wantsOfflineMode], k ∈ [rememberPassword, wantsOfflineMode] := by decide
    exact (hset.mono hmono).trans (by decide) (hoffline.mono hmono')
  have hsame : (c.set mostRecent ['1']).segs = c.segs := hset.back (by decide) (by decide) hboth
  have hsame₁ : c.set mostRecent ['1'] = c := Cut.ext hsame rfl
  rw [hsame₁] at h hremember hoffline
  have hsame₂ : (c.set rememberPassword ['1']).segs = c.segs := hset.back (by decide) (by decide) hoffline
  have hsame₃ : c.set rememberPassword ['1'] = c := Cut.ext hsame₂ rfl
  rw [hsame₃] at h
  exact ⟨hrecent, hremember, setSegments_eq_self_iff.mp hsame, setSegments_eq_self_iff.mp hsame₂,
    setSegments_eq_self_iff.mp (congrArg Cut.segs h)⟩

end Edits

end Cut

/-- A text is cut at its quotation marks in one way. -/
theorem cut_unique {p p' : List Char} {c c' : Cut} (hp : '"' ∉ p) (hp' : '"' ∉ p') (hc : c.Unquoted)
    (hc' : c'.Unquoted)
    (h : p ++ '"' :: (closed c.segs ++ c.last) = p' ++ '"' :: (closed c'.segs ++ c'.last)) :
    p = p' ∧ c = c' := by
  rcases split_at_quote hp h with ⟨hsame, htail⟩ | ⟨a, rfl, -⟩
  · obtain ⟨hsegs, hlast⟩ := closed_inj hc'.segs hc.segs hc'.last hc.last htail
    exact ⟨hsame.symm, (Cut.ext hsegs hlast).symm⟩
  · simp at hp'

/-- The text between the braces, cut at its quotation marks, is settled. -/
def SettledText (inner : List Char) : Prop :=
  ∃ p c, '"' ∉ p ∧ Cut.Unquoted c ∧ inner = p ++ '"' :: (closed c.segs ++ c.last) ∧ c.Settled

theorem settledText_cut {p : List Char} {c : Cut} (hp : '"' ∉ p) (hc : c.Unquoted) :
    SettledText (p ++ '"' :: (closed c.segs ++ c.last)) ↔ c.Settled := by
  constructor
  · rintro ⟨p', c', hp', hc', heq, hsettled⟩
    obtain ⟨-, rfl⟩ := cut_unique hp hp' hc hc' heq
    exact hsettled
  · exact fun h => ⟨p, c, hp, hc, rfl, h⟩

theorem repairBlock_eq_self_iff (inner : List Char) :
    repairBlock ('{' :: (inner ++ ['}'])) = some ('{' :: (inner ++ ['}'])) ↔ SettledText inner := by
  by_cases hinner : '"' ∈ inner
  · obtain ⟨p, c, hp, hc, rfl⟩ := exists_cut hinner
    have hblock : ∀ c : Cut, '{' :: ((p ++ '"' :: (closed c.segs ++ c.last)) ++ ['}']) = c.block p := by
      simp [Cut.block]
    have hc' : Cut.Unquoted c.repaired := Cut.AvoidsFrom.repaired (by decide) hc
    rw [settledText_cut hp hc, hblock, Cut.repairBlock_cut hp hc, Option.some_inj, ← Cut.settled_iff]
    constructor
    · intro h
      rw [← hblock, ← hblock] at h
      exact (cut_unique hp hp hc' hc (List.append_cancel_right (List.cons.inj h).2)).2
    · intro h
      rw [h]
  · refine iff_of_false (fun h => ?_) ?_
    · rw [repairBlock_unquoted hinner, Option.some_inj] at h
      have hmem : '"' ∈ fresh.block (inner ++ tabs) := by simp [Cut.block]
      rw [h] at hmem
      simp [hinner] at hmem
    · rintro ⟨p, c, -, -, rfl, -⟩
      simp at hinner

/-- The repair leaves the file as it is. -/
def Unedited (user content : List Char) : Prop :=
  Uncut user content ∨ ∃ before inner after, CutOut user content before inner after ∧ SettledText inner

theorem repairAccount_compiles {user content new : List Char} (h : repairAccount user content = some new) :
    nameSearch user content ≠ none := by
  intro hnone
  rw [repairAccount, hnone] at h
  cases h

theorem repairAccount_eq_self_iff {user content : List Char} :
    repairAccount user content = some content ↔ Unedited user content := by
  constructor
  · intro h
    rcases cutOut_cases (repairAccount_compiles h) with huncut | ⟨before, inner, after, hcut⟩
    · exact .inl huncut
    refine .inr ⟨before, inner, after, hcut, (repairBlock_eq_self_iff inner).mp ?_⟩
    rw [hcut.repairAccount_eq, Option.map_eq_some_iff] at h
    obtain ⟨block, hblock, heq⟩ := h
    have htext : content = before ++ ('{' :: (inner ++ ['}'])) ++ after := by
      rw [hcut.text]
      simp
    rw [htext] at heq
    rw [hblock, List.append_cancel_left (List.append_cancel_right heq)]
  · rintro (huncut | ⟨before, inner, after, hcut, hsettled⟩)
    · exact repairAccount_uncut huncut
    · rw [hcut.repairAccount_eq, (repairBlock_eq_self_iff inner).mpr hsettled, Option.map_some, hcut.text]
      simp

end Disping.Healing
