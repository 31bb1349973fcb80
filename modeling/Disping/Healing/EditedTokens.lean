import Disping.Healing.BlockEdits
import Disping.Text.Marks
import Disping.Text.Turns

/-! # What the edits of a block do to the tokens of the file

The braces that cut the block out may be braces of the file, or stand in its strings. The edits act on
the strings that stand whole between them.
-/
namespace Disping.Healing

open Text

/-- The edits, on the tokens between the braces. -/
def editTokens (mid : List Token) : List Token :=
  setPairs wantsOfflineMode ['0'] (editPairs rememberPassword ['1'] (editPairs mostRecent ['1'] mid))

/-- A pair is put before the closing brace. -/
def Adds (mid : List Token) : Prop :=
  .string mostRecent ∉ mid ∨ .string rememberPassword ∉ setPairs mostRecent ['1'] mid

/-- The tokens between the braces that cut the block out, and those before and behind them. Of a string
in which one of the braces stands, no part is between them. -/
def Inside (before inner after : List Char) (pre mid post : List Token) : Prop :=
  ∃ h body r, inner = h ++ (body ++ r) ∧ Layout pre (before ++ '{' :: h) ∧ Layout mid body ∧
    Layout post (r ++ '}' :: after) ∧ (h = [] ∨ ∃ s, h = s ++ ['"'] ∧ '"' ∉ s) ∧
      (r = [] ∨ ∃ s, r = '"' :: s ∧ '"' ∉ s)

theorem keyWord_mostRecent : KeyWord mostRecent := editedKey_mostRecent.word

theorem keyWord_rememberPassword : KeyWord rememberPassword := editedKey_rememberPassword.word

theorem keyWord_wantsOfflineMode : KeyWord wantsOfflineMode := editedKey_wantsOfflineMode.word

theorem keyWord_of_mem {k : List Char} (hk : k ∈ voc.keys) : KeyWord k := by
  rcases List.mem_cons.mp hk with rfl | hk
  · exact keyWord_mostRecent
  rcases List.mem_cons.mp hk with rfl | hk
  · exact keyWord_rememberPassword
  rcases List.mem_cons.mp hk with rfl | hk
  · exact keyWord_wantsOfflineMode
  · cases hk

section Braces
variable {bs : List Token} (hbs : ∀ s, .string s ∉ bs) (ts : List Token)
include hbs

theorem editTokens_braces : editTokens (bs ++ ts) = bs ++ editTokens ts := by
  unfold editTokens
  rw [editPairs_braces hbs, editPairs_braces hbs, setPairs_braces hbs]

theorem adds_braces : Adds (bs ++ ts) ↔ Adds ts := by
  unfold Adds
  rw [setPairs_braces hbs, List.mem_append, List.mem_append, or_iff_right (hbs _), or_iff_right (hbs _)]

end Braces

/-! The segments of a block that stand by turns. -/

section Turns
variable {b : Bool} {c : Cut} {ts bs : List Token} {key value : List Char}

/-- A block that ends between two tokens. -/
theorem Cut.edit_turns (hkey : KeyWord key) (hc : c.Unquoted) (h : ByTurns b c.segs ts false)
    (hlast : Layout bs c.last) :
    ∃ ts' bs', ByTurns b (c.edit key value).segs ts' false ∧ Layout bs' (c.edit key value).last ∧
      ts' ++ bs' = editPairs key value (ts ++ bs) := by
  have hbs : ∀ s, .string s ∉ bs := fun s => hlast.string_not_mem hc.last
  have hmem : key ∈ c.segs ↔ .string key ∈ ts ++ bs := by
    rw [h.mem_iff hkey, List.mem_append, or_iff_left (hbs key)]
  unfold Cut.edit editPairs
  rw [if_congr hmem.symm rfl rfl]
  split
  · exact ⟨_, bs, h.set hkey gap_tabs, hlast, (setPairs_append_braces hbs ts).symm⟩
  · have hopen : Layout bs (c.last ++ tabs) := by
      simpa using hlast.append (.nil (show Gap tabs from gap_tabs))
    have hquote : '"' ∉ c.last ++ tabs := by simp [hc.last, tabs]
    have hend := h.append (.braces hopen hquote (.string (s := key)
      (.braces (.nil gap_tabs) (by decide) (.string (s := value) (.nil false)))))
    exact ⟨_, [], hend, .nil gap_lineTab, by simp⟩

theorem Cut.repaired_turns (hc : c.Unquoted) (h : ByTurns b c.segs ts false) (hlast : Layout bs c.last) :
    ∃ ts' bs', ByTurns b c.repaired.segs ts' false ∧ Layout bs' c.repaired.last ∧
      ts' ++ bs' = editTokens (ts ++ bs) := by
  have hd : Cut.Foreign '"' := by decide
  have hc₁ : Cut.Unquoted (c.edit mostRecent ['1']) := Cut.AvoidsFrom.edit mem_values.1 hd hc mem_keys.1
  obtain ⟨ts₁, bs₁, h₁, hlast₁, heq₁⟩ := Cut.edit_turns keyWord_mostRecent hc h hlast
  have hc₂ : Cut.Unquoted ((c.edit mostRecent ['1']).edit rememberPassword ['1']) :=
    Cut.AvoidsFrom.edit mem_values.1 hd hc₁ mem_keys.2.1
  obtain ⟨ts₂, bs₂, h₂, hlast₂, heq₂⟩ := Cut.edit_turns keyWord_rememberPassword hc₁ h₁ hlast₁
  refine ⟨_, bs₂, h₂.set keyWord_wantsOfflineMode gap_tabs, hlast₂, ?_⟩
  rw [← setPairs_append_braces fun s => hlast₂.string_not_mem hc₂.last, heq₂, heq₁]
  rfl

/-- A block that ends in a string, with both keys in it. -/
theorem Cut.repaired_open (h : ByTurns b c.segs ts true) (hadds : ¬ Adds ts) :
    c.repaired.last = c.last ∧ ByTurns b c.repaired.segs (editTokens ts) true := by
  rw [Adds, not_or, not_not, not_not] at hadds
  have hrecent : c.edit mostRecent ['1'] = c.set mostRecent ['1'] :=
    if_pos ((h.mem_iff keyWord_mostRecent).mpr hadds.1)
  have h₁ := h.set (v := ['1']) keyWord_mostRecent gap_tabs
  have hremember : (c.set mostRecent ['1']).edit rememberPassword ['1'] =
      (c.set mostRecent ['1']).set rememberPassword ['1'] :=
    if_pos ((h₁.mem_iff keyWord_rememberPassword).mpr hadds.2)
  have h₂ := h₁.set (v := ['1']) keyWord_rememberPassword gap_tabs
  rw [Cut.repaired, hrecent, hremember, editTokens, editPairs, editPairs, if_pos hadds.1, if_pos hadds.2]
  exact ⟨rfl, h₂.set keyWord_wantsOfflineMode gap_tabs⟩

/-- A pair that is put into a string: its key stands where braces do. -/
theorem Cut.repaired_broken (h : ByTurns b c.segs ts true) (hadds : Adds ts) {us : List Token} {b' : Bool} :
    ¬ ByTurns b c.repaired.segs us b' := by
  obtain ⟨hrecent, hremember, hoffline⟩ := mem_keys
  -- an inserted key is read as no value
  have hstays : ∀ {c' c'' : Cut} {k key : List Char}, k ∈ voc.keys → key ∈ voc.keys →
      voc.Edited voc.keys c.segs c'.segs → voc.Edited [key] c'.segs c''.segs →
      c'.segs[c.segs.length + 1]? = some k → c''.segs[c.segs.length + 1]? = some k := by
    intro c' c'' k key hk hkey hbefore hedited hat
    apply hedited.mem hk hat
    rintro j g hj hjk - -
    obtain ⟨x, hx, hchange⟩ := hbefore.at_some (by omega) hjk
    exact h.last_not_key (keyWord_of_mem hkey) (by omega) (hchange.key hkey ▸ hx)
  have hall : ∀ k ∈ voc.keys, ∀ key ∈ [k], key ∈ voc.keys := by
    intro k hk key hmem
    rwa [List.mem_singleton.mp hmem]
  have hset : ∀ {c : Cut}, voc.Edited [wantsOfflineMode] c.segs (c.set wantsOfflineMode ['0']).segs :=
    Cut.edited_set mem_values.2 _
  have hedit : ∀ {c : Cut} {k : List Char}, voc.Edited [k] c.segs (c.edit k ['1']).segs :=
    Cut.edited_edit mem_values.1 _
  have hfirst : voc.Edited voc.keys c.segs (c.edit mostRecent ['1']).segs :=
    hedit.mono (hall _ hrecent)
  have hsecond : voc.Edited voc.keys c.segs ((c.edit mostRecent ['1']).edit rememberPassword ['1']).segs :=
    hfirst.trans (fun _ hk => hk) (hedit.mono (hall _ hremember))
  intro h'
  by_cases hmem : mostRecent ∈ c.segs
  · have hedited : c.edit mostRecent ['1'] = c.set mostRecent ['1'] := if_pos hmem
    have h₁ := h.set (v := ['1']) keyWord_mostRecent gap_tabs
    have hnone : rememberPassword ∉ (c.set mostRecent ['1']).segs := by
      intro hin
      rcases hadds with hadds | hadds
      · exact hadds ((h.mem_iff keyWord_mostRecent).mp hmem)
      · exact hadds ((h₁.mem_iff keyWord_rememberPassword).mp hin)
    have hinserted : (c.set mostRecent ['1']).edit rememberPassword ['1'] =
        (c.set mostRecent ['1']).insert rememberPassword ['1'] := if_neg hnone
    have hat : ((c.set mostRecent ['1']).insert rememberPassword ['1']).segs[c.segs.length + 1]? =
        some rememberPassword := by
      simp [Cut.insert, Cut.set]
    rw [Cut.repaired] at h'
    rw [hedited, hinserted] at hsecond h'
    exact h.not_key_at keyWord_rememberPassword h' (hstays hremember hoffline hsecond hset hat)
  · have hedited : c.edit mostRecent ['1'] = c.insert mostRecent ['1'] := if_neg hmem
    have hat : (c.edit mostRecent ['1']).segs[c.segs.length + 1]? = some mostRecent := by
      rw [hedited]
      simp [Cut.insert]
    have hat₂ := hstays hrecent hremember hfirst hedit hat
    exact h.not_key_at keyWord_mostRecent h' (hstays hrecent hoffline hsecond hset hat₂)

end Turns

/-! The tokens of the file. -/

section Files
variable {before inner after p : List Char} {ts pre mid post pre' mid' post' : List Token} {c : Cut}

theorem Inside.layout (h : Inside before inner after pre mid post) :
    Layout (pre ++ (mid ++ post)) (before ++ '{' :: (inner ++ '}' :: after)) := by
  obtain ⟨head, body, r, rfl, hpre, hmid, hpost, -, -⟩ := h
  have htext := hpre.append (hmid.append hpost)
  simpa using htext

theorem not_layout_unclosed {s s' : List Char} (hs : '"' ∉ s) (hs' : '"' ∉ s') :
    ¬ Layout ts (s ++ '"' :: s') := by
  intro h
  obtain ⟨bs, rest, -, -, hrest⟩ := h.unquoted_split hs
  exact (Layout.nil .nil).not_open hs' hrest

theorem head_closing {t : List Char} (h : Layout ts ('}' :: t)) : ts.head? = some .closing := by
  rw [← tokenize_eq_some_iff, tokenize, if_neg (by decide), if_neg (by decide), if_pos rfl] at h
  obtain ⟨us, -, rfl⟩ := Option.map_eq_some_iff.mp h
  rfl

theorem head_string {t : List Char} (h : Layout ts ('"' :: t)) : ts.head? ≠ some .closing := by
  rw [← tokenize_eq_some_iff, tokenize, if_pos rfl] at h
  obtain ⟨⟨s, us⟩, -, rfl⟩ := Option.map_eq_some_iff.mp h
  simp

/-- The file has one list of tokens between the braces. -/
theorem Inside.unique (h : Inside before inner after pre mid post)
    (h' : Inside before inner after pre' mid' post') : pre = pre' ∧ mid = mid' ∧ post = post' := by
  obtain ⟨head, body, r, rfl, hpre, hmid, hpost, hhead, hr⟩ := h
  obtain ⟨head', body', r', heq, hpre', hmid', hpost', hhead', hr'⟩ := h'
  have hopen : ∀ {ts us s}, Layout ts (before ++ '{' :: []) → Layout us (before ++ '{' :: (s ++ ['"'])) →
      '"' ∉ s → False := by
    intro ts us s hts hus hs
    have htext : before ++ '{' :: (s ++ ['"']) = (before ++ '{' :: []) ++ (s ++ ['"']) := by simp
    rw [htext] at hus
    obtain ⟨vs, -, hvs⟩ := hus.begins hts
    exact not_layout_unclosed hs List.not_mem_nil hvs
  obtain rfl : head = head' := by
    rcases hhead with rfl | ⟨s, rfl, hs⟩
    · rcases hhead' with rfl | ⟨s', rfl, hs'⟩
      · rfl
      · exact (hopen hpre hpre' hs').elim
    · rcases hhead' with rfl | ⟨s', rfl, hs'⟩
      · exact (hopen hpre' hpre hs).elim
      · simp only [List.append_assoc, List.cons_append, List.nil_append] at heq
        rcases split_at_quote hs heq with ⟨rfl, -⟩ | ⟨a, rfl, -⟩
        · rfl
        · simp at hs'
  obtain rfl := hpre.unique hpre'
  have hrest := List.append_cancel_left heq
  have hlast : ∀ {ts s b b'}, Layout ts b → b = b' ++ '"' :: s → '"' ∉ s → ∀ us, ¬ Layout us b' := by
    rintro ts s b b' hb rfl hs us hus
    exact hus.not_open hs hb
  obtain rfl : r = r' := by
    rcases hr with rfl | ⟨s, rfl, hs⟩
    · rcases hr' with rfl | ⟨s', rfl, hs'⟩
      · rfl
      · rw [List.append_nil] at hrest
        exact (hlast hmid hrest hs' _ hmid').elim
    · rcases hr' with rfl | ⟨s', rfl, hs'⟩
      · rw [List.append_nil] at hrest
        exact (hlast hmid' hrest.symm hs _ hmid).elim
      · rcases List.append_eq_append_iff.mp hrest with ⟨m, rfl, hm⟩ | ⟨m, rfl, hm⟩
        · cases m with
          | nil => exact hm
          | cons d m =>
            obtain ⟨-, rfl⟩ := List.cons.inj hm
            exact absurd (by simp) hs
        · cases m with
          | nil => exact hm.symm
          | cons d m =>
            obtain ⟨-, rfl⟩ := List.cons.inj hm
            exact absurd (by simp) hs'
  obtain rfl := List.append_cancel_right hrest
  exact ⟨rfl, hmid.unique hmid', hpost.unique hpost'⟩

/-- What the edits leave of the file's tokens, or none where they put a pair into a string. -/
structure Edited (pre mid post : List Token) (new : List Char) : Prop where
  layout : (Adds mid → post.head? = some .closing) → Layout (pre ++ (editTokens mid ++ post)) new
  broken : ¬ (Adds mid → post.head? = some .closing) → ∀ ts, ¬ Layout ts new

theorem edited_of_cut (hp : '"' ∉ p) (hc : c.Unquoted)
    (hlayout : Layout ts (before ++ '{' :: ((p ++ '"' :: (closed c.segs ++ c.last)) ++ '}' :: after))) :
    ∃ pre mid post, Inside before (p ++ '"' :: (closed c.segs ++ c.last)) after pre mid post ∧
      Edited pre mid post (before ++ c.repaired.block p ++ after) := by
  have hquoted : Cut.Unquoted c.repaired := Cut.AvoidsFrom.repaired (by decide) hc
  have hcontent : ∀ {c : Cut}, before ++ '{' :: ((p ++ '"' :: (closed c.segs ++ c.last)) ++ '}' :: after) =
      (before ++ '{' :: p) ++ '"' :: (closed c.segs ++ (c.last ++ '}' :: after)) := by
    intro c
    simp
  have hnew : before ++ c.repaired.block p ++ after =
      (before ++ '{' :: p) ++ '"' :: (closed c.repaired.segs ++ (c.repaired.last ++ '}' :: after)) := by
    simp [Cut.block]
  rw [hcontent] at hlayout
  obtain ⟨b, pre₀, rest, rfl, hpre₀, hrest⟩ := hlayout.quote_split
  obtain ⟨b', us, post₀, rfl, hturns, hpost₀⟩ := ByTurns.of_layout hc.segs hrest
  -- the strings of the block begin behind its first quotation mark, or with the string it opens
  obtain ⟨pre, ps, head, start, rfl, hpre, hps, hnone, hhead, hstart⟩ :
    ∃ pre ps head start, pre₀ = pre ++ ps ∧
      Layout pre (before ++ '{' :: head) ∧ Layout ps start ∧ (∀ s, .string s ∉ ps) ∧
        (head = [] ∨ ∃ s, head = s ++ ['"'] ∧ '"' ∉ s) ∧
          ∀ t, p ++ '"' :: t = head ++ (start ++ lead b t) := by
    cases b with
    | true =>
      have htext : before ++ '{' :: p = (before ++ ['{']) ++ p := by simp
      rw [if_pos rfl, htext] at hpre₀
      obtain ⟨pre, ps, rfl, hpre, hps⟩ := hpre₀.unquoted_end hp
      exact ⟨pre, ps, [], p, rfl, hpre, hps, fun s => hps.string_not_mem hp, .inl rfl, fun t => rfl⟩
    | false =>
      have htext : before ++ '{' :: p ++ ['"'] = before ++ '{' :: (p ++ ['"']) := by simp
      rw [if_neg Bool.false_ne_true, htext] at hpre₀
      refine ⟨pre₀, [], p ++ ['"'], [], (List.append_nil _).symm, hpre₀, .nil .nil, fun _ => List.not_mem_nil,
        .inr ⟨p, rfl, hp⟩, fun t => ?_⟩
      simp [lead]
  have hlead : ∀ t t', lead b (t ++ t') = lead b t ++ t' := by
    intro t t'
    cases b <;> rfl
  cases b' with
  | false =>
    obtain ⟨bs, post, rfl, hbs, hpost⟩ := hpost₀.unquoted_split hc.last
    have hbody : Layout (us ++ bs) (lead b (closed c.segs ++ c.last)) := hturns.layout hc.segs hbs
    refine ⟨pre, ps ++ (us ++ bs), post, ⟨head, start ++ lead b (closed c.segs ++ c.last), [], ?_, hpre,
      hps.append hbody, hpost, hhead, .inl rfl⟩, ?_, ?_⟩
    · rw [List.append_nil, hstart]
    · intro _
      obtain ⟨us', bs', hturns', hbs', heq⟩ := Cut.repaired_turns hc hturns hbs
      have hend := hturns'.layout (z := c.repaired.last ++ '}' :: after) hquoted.segs (hbs'.append hpost)
      have hjoined := hpre₀.quote_join hend
      rw [hnew, editTokens_braces hnone, ← heq]
      simpa using hjoined
    · exact fun hno => absurd (fun _ => head_closing hpost) hno
  | true =>
    obtain ⟨t, ht, hbody⟩ := hturns.layout_open hc.segs
    refine ⟨pre, ps ++ us, post₀, ⟨head, start ++ t, '"' :: c.last, ?_, hpre, hps.append hbody, hpost₀, hhead,
      .inr ⟨_, rfl, hc.last⟩⟩, ?_, ?_⟩
    · rw [hstart, hlead, ht]
      simp
    · intro hadds
      have hnone' : ¬ Adds us := fun h => head_string hpost₀ (hadds ((adds_braces hnone us).mpr h))
      obtain ⟨hlast, hturns'⟩ := Cut.repaired_open hturns hnone'
      have hend := hturns'.layout (z := c.last ++ '}' :: after) hquoted.segs hpost₀
      have hjoined := hpre₀.quote_join hend
      rw [hnew, hlast, editTokens_braces hnone]
      simpa using hjoined
    · intro hno ts hts
      have hadds : Adds us := by
        by_contra hnot
        exact hno fun h => absurd ((adds_braces hnone us).mp h) hnot
      rw [hnew] at hts
      obtain ⟨b₁, pre₁, rest₁, rfl, hpre₁, hrest₁⟩ := hts.quote_split
      obtain rfl := hpre₁.quote_unique hpre₀
      obtain ⟨b', us', -, -, hturns', -⟩ := ByTurns.of_layout hquoted.segs hrest₁
      exact Cut.repaired_broken hturns hadds hturns'

theorem edited_of_unquoted (hinner : '"' ∉ inner)
    (hlayout : Layout ts (before ++ '{' :: (inner ++ '}' :: after))) :
    (∃ pre mid post, Inside before inner after pre mid post ∧
      Edited pre mid post (before ++ fresh.block (inner ++ tabs) ++ after)) ∨
    (∀ pre mid post, ¬ Inside before inner after pre mid post) ∧
      ∀ ts, ¬ Layout ts (before ++ fresh.block (inner ++ tabs) ++ after) := by
  have hcontent :
      before ++ '{' :: (inner ++ '}' :: after) = (before ++ ['{']) ++ (inner ++ '}' :: after) := by
    simp
  have hnew : before ++ fresh.block (inner ++ tabs) ++ after =
      (before ++ '{' :: (inner ++ tabs)) ++ '"' :: (closed fresh.segs ++ (fresh.last ++ '}' :: after)) := by
    simp [Cut.block]
  have hsegs : Unquoted fresh.segs := (by decide : ∀ s ∈ fresh.segs, '"' ∉ s)
  by_cases hopen : ∃ pre, Layout pre (before ++ ['{'])
  · obtain ⟨pre, hpre⟩ := hopen
    rw [hcontent] at hlayout
    obtain ⟨rest, rfl, hrest⟩ := hlayout.begins hpre
    obtain ⟨mid, post, rfl, hmid, hpost⟩ := hrest.unquoted_split hinner
    refine .inl ⟨pre, mid, post, ⟨[], inner, [], by simp, hpre, hmid, hpost, .inl rfl, .inl rfl⟩, fun _ => ?_,
      fun hno => absurd (fun _ => head_closing hpost) hno⟩
    have hnone : ∀ s, .string s ∉ mid := fun s => hmid.string_not_mem hinner
    have hadded : editTokens mid =
        mid ++ [.string mostRecent, .string ['1'], .string rememberPassword, .string ['1']] := by
      have hbraces := editTokens_braces hnone []
      rw [List.append_nil] at hbraces
      rw [hbraces]
      rfl
    have hturns : ByTurns true fresh.segs
        [.string mostRecent, .string ['1'], .string rememberPassword, .string ['1']] false :=
      .string (.braces (.nil gap_tabs) (by decide) (.string (.braces (.nil gap_between)
        (by decide) (.string (.braces (.nil gap_tabs) (by decide) (.string (.nil false)))))))
    have hlast : Layout post (lead false (fresh.last ++ '}' :: after)) :=
      Layout.append (.nil gap_lineTab) hpost
    have hbefore : Layout (pre ++ mid) (before ++ '{' :: (inner ++ tabs)) := by
      simpa using hpre.append (hmid.append (.nil (show Gap tabs from gap_tabs)))
    have hjoined := hbefore.quote_join (b := true) (hturns.layout hsegs hlast)
    rw [hnew, hadded]
    simpa using hjoined
  · refine .inr ⟨?_, ?_⟩
    · rintro pre mid post ⟨head, body, r, rfl, hpre, -, -, rfl | ⟨s, rfl, -⟩, -⟩
      · exact hopen ⟨pre, hpre⟩
      · simp at hinner
    · intro ts hts
      rw [hnew] at hts
      obtain ⟨b, pre, rest, rfl, hpre, hrest⟩ := hts.quote_split
      cases b with
      | true =>
        have hcut : before ++ '{' :: (inner ++ tabs) = (before ++ ['{']) ++ (inner ++ tabs) := by simp
        rw [if_pos rfl, hcut] at hpre
        obtain ⟨pre', -, -, hpre', -⟩ := hpre.unquoted_end (by simp [hinner, tabs])
        exact hopen ⟨pre', hpre'⟩
      | false =>
        obtain ⟨b', us, post, -, hturns, -⟩ := ByTurns.of_layout hsegs hrest
        cases hturns with
        | braces hbs => exact keyWord_mostRecent.not_layout _ hbs

/-- The edits of a block, on the tokens of the file: where no token stands whole between the braces they
leave none. -/
theorem repairBlock_tokens (hlayout : Layout ts (before ++ '{' :: (inner ++ '}' :: after))) :
    ∃ block, repairBlock ('{' :: (inner ++ ['}'])) = some block ∧
      ((∃ pre mid post, Inside before inner after pre mid post ∧
          Edited pre mid post (before ++ block ++ after)) ∨
        (∀ pre mid post, ¬ Inside before inner after pre mid post) ∧
          ∀ ts, ¬ Layout ts (before ++ block ++ after)) := by
  by_cases hinner : '"' ∈ inner
  · obtain ⟨p, c, hp, hc, rfl⟩ := exists_cut hinner
    refine ⟨c.repaired.block p, ?_, .inl (edited_of_cut hp hc hlayout)⟩
    have hblock : '{' :: ((p ++ '"' :: (closed c.segs ++ c.last)) ++ ['}']) = c.block p := by simp [Cut.block]
    rw [hblock, Cut.repairBlock_cut hp hc]
  · exact ⟨_, repairBlock_unquoted hinner, edited_of_unquoted hinner hlayout⟩

end Files

end Disping.Healing
