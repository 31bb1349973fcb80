import Disping.Healing.AccountTree
import Disping.Healing.EditedTokens
import Disping.Healing.SettledBlock
import Disping.Text.NamedSearch

/-! # The strings of loginusers.vdf that are written over

What the repair does to a file that consists of tokens: which strings it writes over, and before which
brace it puts a pair. Where no such marks exist the repair leaves no tokens.
-/
namespace Disping.Healing

open Text

/-- The edits between the braces: each writes over the strings that directly follow its key. -/
def markRegion (mid : List Token) : List MarkedToken :=
  markPairs wantsOfflineMode ['0'] (markOrAdd rememberPassword ['1']
    (markOrAdd mostRecent ['1'] (mid.map .kept)))

theorem markRegion_written (mid : List Token) :
    (markRegion mid).map MarkedToken.written = editTokens mid := by
  rw [markRegion, markPairs_written, markOrAdd_written, markOrAdd_written, MarkedToken.map_written_kept]
  rfl

theorem extends_markRegion (mid : List Token) : Extends mid (markRegion mid) :=
  extends_markPairs (extends_markOrAdd (extends_markOrAdd (extends_kept mid)))

theorem plain_markRegion (mid : List Token) : ∀ t ∈ markRegion mid, t.Plain :=
  plain_markPairs (plain_markOrAdd (plain_markOrAdd (MarkedToken.plain_kept mid)))

/-- The two strings that the expression of the first pair reads. -/
def unset : List Token := [.string mostRecent, .string ['0']]

/-- One of the two spellings of the raised pair that the function looks for. -/
def SpelledOut (content : List Char) : Prop :=
  pairText "MostRecent" "1" <:+: content ∨ "\"MostRecent\" \"1\"".toList <:+: content

/-- The first pair that reads 0, between other tokens, is raised. -/
def raiseFirst (l r : List Token) : List MarkedToken :=
  l.map .kept ++ .string (.kept mostRecent) :: .string ⟨['0'], some ['1']⟩ :: r.map .kept

/-- The marks on the file's tokens. A brace that cuts the block out may stand in a string; the strings in
which one does are not between the braces. -/
inductive Marking (autoUser content : List Char) (ts : List Token) : List MarkedToken → Prop
  | uncut : autoUser ≠ [] → Uncut autoUser content → Marking autoUser content ts (ts.map .kept)
  | cut {before inner after pre mid post cells added} : autoUser ≠ [] →
      CutOut autoUser content before inner after → Inside before inner after pre mid post →
      markRegion mid = cells ++ MarkedToken.pairs added → cells.map MarkedToken.before = mid →
      (added = [] ∨ post.head? = some .closing) →
      Marking autoUser content ts (pre.map .kept ++ (cells ++ MarkedToken.attach added (post.map .kept)))
  | unchanged : autoUser = [] → (SpelledOut content ∨ ¬ unset <:+: ts) →
      Marking autoUser content ts (ts.map .kept)
  | raised {l r} : autoUser = [] → ¬ SpelledOut content →
      ts = l ++ .string mostRecent :: .string ['0'] :: r → ¬ unset <:+: l →
      Marking autoUser content ts (raiseFirst l r)

section Region
variable {mid : List Token} {cells : List MarkedToken} {added : List Added}

theorem length_editTokens (mid : List Token) : (editTokens mid).length = mid.length ↔ ¬ Adds mid := by
  rw [editTokens, length_setPairs, length_editPairs, length_editPairs, Adds, not_or, not_not, not_not]
  by_cases hrecent : .string mostRecent ∈ mid
  · rw [editPairs, if_pos hrecent]
    by_cases hremember : .string rememberPassword ∈ setPairs mostRecent ['1'] mid
    · simp [hrecent, hremember]
    · simp [hrecent, hremember]
  · rw [if_neg hrecent]
    exact iff_of_false (by omega) fun h => hrecent h.1

theorem adds_iff (h : markRegion mid = cells ++ MarkedToken.pairs added)
    (hcells : cells.map MarkedToken.before = mid) : ¬ Adds mid ↔ added = [] := by
  have hlength : (editTokens mid).length = mid.length + (MarkedToken.pairs added).length := by
    rw [← markRegion_written, List.length_map, h, List.length_append, ← hcells, List.length_map]
  rw [← length_editTokens, hlength, Nat.add_eq_left, List.length_eq_zero_iff]
  cases added with
  | nil => exact iff_of_true rfl rfl
  | cons p added => exact iff_of_false (by simp [MarkedToken.pairs_cons]) (by simp)

/-- The marked tokens between the braces, and the edits. -/
theorem region_after (h : markRegion mid = cells ++ MarkedToken.pairs added) {pre post : List Token}
    (hadded : added = [] ∨ post.head? = some .closing) :
    (pre.map MarkedToken.kept ++ (cells ++ MarkedToken.attach added (post.map .kept))).flatMap
      MarkedToken.after = pre ++ (editTokens mid ++ post) := by
  have hplain : ∀ t ∈ cells, t.Plain := fun t ht =>
    plain_markRegion mid t (h ▸ List.mem_append_left _ ht)
  rw [List.flatMap_append, List.flatMap_append, MarkedToken.flatMap_after_kept,
    MarkedToken.attach_after hadded, MarkedToken.flatMap_after hplain, ← markRegion_written, h,
    List.map_append, List.append_assoc]

end Region

/-- The first of the two strings is one place. -/
theorem first_unset_unique {l r l' r' : List Token}
    (h : l ++ .string mostRecent :: .string ['0'] :: r = l' ++ .string mostRecent :: .string ['0'] :: r')
    (hl : ¬ unset <:+: l) (hl' : ¬ unset <:+: l') : l = l' ∧ r = r' := by
  have hsplit : ∀ {l r l' r'}, l ++ .string mostRecent :: .string ['0'] :: r =
      l' ++ .string mostRecent :: .string ['0'] :: r' → ¬ unset <:+: l' →
      ∀ m, l' = l ++ m → m = [] := by
    rintro l r l' r' heq hfirst m rfl
    rw [List.append_assoc, List.append_cancel_left_eq] at heq
    match m with
    | [] => rfl
    | [x] => cases heq
    | x :: y :: m =>
      cases heq
      exact absurd ⟨l, m, by simp [unset]⟩ hfirst
  obtain ⟨m, hm⟩ | ⟨m, hm⟩ :=
    List.prefix_or_prefix_of_prefix (List.prefix_append l _) (h ▸ List.prefix_append l' _)
  · obtain rfl := hsplit h hl' m hm.symm
    rw [List.append_nil] at hm
    subst hm
    simpa using h
  · obtain rfl := hsplit h.symm hl m hm.symm
    rw [List.append_nil] at hm
    subst hm
    simpa using h

theorem regex_firstPattern : regex firstPattern false =
    some (namedExpression (· == ·) mostRecent ['0']) := rfl

section Marking
variable {autoUser content new : List Char} {ts us : List Token} {ms : List MarkedToken}

theorem Marking.before (hlayout : Layout ts content) (h : Marking autoUser content ts ms) :
    ms.map MarkedToken.before = ts := by
  cases h with
  | uncut => exact MarkedToken.map_before_kept ts
  | unchanged => exact MarkedToken.map_before_kept ts
  | raised _ _ hts _ =>
    rw [raiseFirst, List.map_append, List.map_cons, List.map_cons, MarkedToken.map_before_kept,
      MarkedToken.map_before_kept, hts]
    rfl
  | cut _ hcut hinside _ hcells _ =>
    rw [List.map_append, List.map_append, MarkedToken.map_before_kept, hcells,
      MarkedToken.attach_before, MarkedToken.map_before_kept]
    exact hinside.layout.unique (hcut.text ▸ hlayout)

/-- The raised pair, where there is one. -/
theorem repairFirst_tokens (hlayout : Layout ts content) (hspelled : ¬ SpelledOut content) :
    (repairFirst content = some content ∧ ¬ unset <:+: ts) ∨
    ∃ l r new, ts = l ++ .string mostRecent :: .string ['0'] :: r ∧ ¬ unset <:+: l ∧
      repairFirst content = some new ∧ Layout (l ++ .string mostRecent :: .string ['1'] :: r) new := by
  unfold SpelledOut at hspelled
  cases hsearch : regexSearch (namedExpression (· == ·) mostRecent ['0']) content with
  | none =>
    refine .inl ⟨?_, hlayout.search_none hsearch⟩
    rw [repairFirst, if_neg hspelled, regex_firstPattern, Option.map_some, hsearch]
  | some p =>
    obtain ⟨pos, stop⟩ := p
    obtain ⟨l, r, htokens, hl, hr, hfirst⟩ := hlayout.search_some keyWord_mostRecent (by decide) hsearch
    let new := content.take pos ++ pairText "MostRecent" "1" ++ stop.rest
    refine .inr ⟨l, r, new, htokens, hfirst, ?_, ?_⟩
    · rw [repairFirst, if_neg hspelled, regex_firstPattern, Option.map_some, hsearch]
    · have hpair : Layout [.string mostRecent, .string ['1']] (pairText "MostRecent" "1") :=
        .string .nil (by decide) (.string gap_tabs (by decide) (.nil .nil))
      have hnew : new = content.take pos ++ (pairText "MostRecent" "1" ++ stop.rest) := List.append_assoc ..
      rw [hnew]
      exact hl.append (hpair.append hr)

theorem repairFirst_spelledOut (h : SpelledOut content) : repairFirst content = some content := by
  unfold SpelledOut at h
  rw [repairFirst, if_pos h]

theorem repairFirst_eq_self_iff (hlayout : Layout ts content) :
    repairFirst content = some content ↔ SpelledOut content ∨ ¬ unset <:+: ts := by
  by_cases hspelled : SpelledOut content
  · exact iff_of_true (repairFirst_spelledOut hspelled) (.inl hspelled)
  rw [or_iff_right hspelled]
  rcases repairFirst_tokens hlayout hspelled with ⟨hrun, hnone⟩ | ⟨l, r, new, rfl, -, hrun, hnew⟩
  · exact iff_of_true hrun hnone
  · refine iff_of_false (fun h => ?_) (not_not.mpr ⟨l, r, by simp [unset]⟩)
    rw [hrun, Option.some_inj] at h
    subst h
    have htokens := List.append_cancel_left (hlayout.unique hnew)
    simp at htokens

theorem raiseFirst_after (l r : List Token) :
    (raiseFirst l r).flatMap MarkedToken.after = l ++ .string mostRecent :: .string ['1'] :: r := by
  rw [raiseFirst, List.flatMap_append, List.flatMap_cons, List.flatMap_cons, MarkedToken.flatMap_after_kept,
    MarkedToken.flatMap_after_kept]
  rfl

/-- The tokens that the repair writes are the marked ones: without a name. -/
theorem repairFirst_marking (hname : autoUser = []) (hlayout : Layout ts content) :
    (∃ new, repairFirst content = some new ∧ Layout us new) ↔
      ∃ ms, Marking autoUser content ts ms ∧ us = ms.flatMap MarkedToken.after := by
  have hkept : ∀ {us}, Layout us content → us = (ts.map MarkedToken.kept).flatMap MarkedToken.after := by
    intro us hus
    rw [MarkedToken.flatMap_after_kept, hus.unique hlayout]
  constructor
  · rintro ⟨new, hrun, hus⟩
    by_cases hspelled : SpelledOut content
    · rw [repairFirst_spelledOut hspelled, Option.some.injEq] at hrun
      exact ⟨_, .unchanged hname (.inl hspelled), hkept (hrun ▸ hus)⟩
    rcases repairFirst_tokens hlayout hspelled with ⟨hsame, hnone⟩ | ⟨l, r, new', hts, hfirst, hraised, hnew⟩
    · rw [hsame, Option.some.injEq] at hrun
      exact ⟨_, .unchanged hname (.inr hnone), hkept (hrun ▸ hus)⟩
    · rw [hraised, Option.some.injEq] at hrun
      subst hrun
      exact ⟨_, .raised hname hspelled hts hfirst, by rw [raiseFirst_after, hus.unique hnew]⟩
  · rintro ⟨ms, h, rfl⟩
    cases h with
    | uncut hne => exact absurd hname hne
    | cut hne => exact absurd hname hne
    | unchanged _ hsame =>
      rw [MarkedToken.flatMap_after_kept]
      by_cases hspelled : SpelledOut content
      · exact ⟨content, repairFirst_spelledOut hspelled, hlayout⟩
      have hnone := hsame.resolve_left hspelled
      rcases repairFirst_tokens hlayout hspelled with ⟨hrun, -⟩ | ⟨l, r, new, hts, -⟩
      · exact ⟨content, hrun, hlayout⟩
      · exact absurd ⟨l, r, by rw [hts]; simp [unset]⟩ hnone
    | @raised l r _ hspelled hts hfirst =>
      rw [raiseFirst_after]
      rcases repairFirst_tokens hlayout hspelled with ⟨-, hnone⟩ | ⟨l', r', new, hts', hfirst', hrun, hnew⟩
      · exact absurd ⟨l, r, by rw [hts]; simp [unset]⟩ hnone
      · obtain ⟨rfl, rfl⟩ := first_unset_unique (hts.symm.trans hts') hfirst hfirst'
        exact ⟨new, hrun, hnew⟩

/-- The tokens that the repair writes are the marked ones: with a name. -/
theorem repairAccount_marking (hname : autoUser ≠ []) (hlayout : Layout ts content) :
    (∃ new, repairAccount autoUser content = some new ∧ Layout us new) ↔
      ∃ ms, Marking autoUser content ts ms ∧ us = ms.flatMap MarkedToken.after := by
  constructor
  · rintro ⟨new, hrun, hus⟩
    rcases cutOut_cases (repairAccount_compiles hrun) with huncut | ⟨before, inner, after, hcut⟩
    · rw [repairAccount_uncut huncut, Option.some.injEq] at hrun
      subst hrun
      exact ⟨_, .uncut hname huncut, by rw [MarkedToken.flatMap_after_kept, hus.unique hlayout]⟩
    rw [hcut.text] at hlayout
    obtain ⟨block, hblock, hcase⟩ := repairBlock_tokens hlayout
    rw [hcut.repairAccount_eq, hblock, Option.map_some, Option.some.injEq] at hrun
    subst hrun
    rcases hcase with ⟨pre, mid, post, hinside, hedited⟩ | ⟨-, hnone⟩
    · obtain ⟨cells, added, hregion, hcells⟩ := extends_markRegion mid
      by_cases hroom : Adds mid → post.head? = some .closing
      · have hadded : added = [] ∨ post.head? = some .closing := by
          by_cases hadds : Adds mid
          · exact .inr (hroom hadds)
          · exact .inl ((adds_iff hregion hcells).mp hadds)
        refine ⟨_, .cut hname hcut hinside hregion hcells hadded, ?_⟩
        rw [region_after hregion hadded, hus.unique (hedited.layout hroom)]
      · exact absurd hus (hedited.broken hroom us)
    · exact absurd hus (hnone us)
  · rintro ⟨ms, h, rfl⟩
    cases h with
    | unchanged hnil => exact absurd hnil hname
    | raised hnil => exact absurd hnil hname
    | uncut _ huncut =>
      rw [MarkedToken.flatMap_after_kept]
      exact ⟨content, repairAccount_uncut huncut, hlayout⟩
    | cut _ hcut hinside hregion hcells hadded =>
      rw [hcut.text] at hlayout
      obtain ⟨block, hblock, hcase⟩ := repairBlock_tokens hlayout
      rw [region_after hregion hadded, hcut.repairAccount_eq, hblock, Option.map_some]
      rcases hcase with ⟨pre, mid, post, hinside', hedited⟩ | ⟨hnone, -⟩
      · obtain ⟨rfl, rfl, rfl⟩ := hinside.unique hinside'
        refine ⟨_, rfl, hedited.layout fun hadds => hadded.resolve_left fun hnone => ?_⟩
        exact (adds_iff hregion hcells).mpr hnone hadds
      · exact absurd hinside (hnone _ _ _)

theorem repairedContent_marking (hlayout : Layout ts content) :
    (∃ new, repairedContent autoUser content = some new ∧ Layout us new) ↔
      ∃ ms, Marking autoUser content ts ms ∧ us = ms.flatMap MarkedToken.after := by
  unfold repairedContent
  by_cases hname : autoUser = []
  · rw [if_neg (not_not.mpr hname)]
    exact repairFirst_marking hname hlayout
  · rw [if_pos hname]
    exact repairAccount_marking hname hlayout

end Marking

/-! The marked tree. -/

structure MarkedUsers where
  root : Cell
  entries : Marked
  added : List Added

namespace MarkedUsers

def tokens (m : MarkedUsers) : List MarkedToken :=
  .string m.root :: .opening :: (m.entries.tokens ++ [.closing m.added])

def before (m : MarkedUsers) : LoginUsers := ⟨m.root.text, m.entries.before⟩

def after (m : MarkedUsers) : LoginUsers := ⟨m.root.written, m.entries.after.append (Marked.written m.added)⟩

/-- The strings that the repair writes over, and the pairs that it adds. -/
def Marks (autoUser content : List Char) (m : MarkedUsers) : Prop :=
  Marking autoUser content m.before.tokens m.tokens

theorem tokens_after (m : MarkedUsers) : m.after.tokens = m.tokens.flatMap MarkedToken.after := by
  simp [after, tokens, LoginUsers.tokens, MarkedToken.after, MarkedToken.written, Marked.tokens_after,
    Marked.tokens_written]

theorem exists_marked {ms : List MarkedToken} {f : LoginUsers} (h : ms.map MarkedToken.before = f.tokens) :
    ∃ m : MarkedUsers, ms = m.tokens ∧ m.before = f := by
  have hblock : ms.map MarkedToken.before = (Entries.block f.root f.entries .nil).tokens ++ [] := by
    rw [h, List.append_nil]
    rfl
  obtain ⟨m, rest, rfl, hbefore, hrest⟩ := Marked.exists_tokens hblock
  obtain rfl := List.map_eq_nil_iff.mp hrest
  cases m with
  | nil => cases hbefore
  | pair => cases hbefore
  | block root entries added others =>
    obtain ⟨root', entries'⟩ := f
    simp only [Marked.before, Entries.block.injEq] at hbefore
    obtain ⟨rfl, rfl, hothers⟩ := hbefore
    cases others with
    | nil => exact ⟨⟨root, entries, added⟩, List.append_nil _, rfl⟩
    | pair => cases hothers
    | block => cases hothers

end MarkedUsers

/-- The tree of the text that the repair writes is the marked one. -/
theorem repairedContent_parses {autoUser content : List Char} {f g : LoginUsers} (h : Parses content f) :
    (∃ new, repairedContent autoUser content = some new ∧ Parses new g) ↔
      ∃ m : MarkedUsers, m.before = f ∧ m.Marks autoUser content ∧ m.after = g := by
  have hlayout := parses_iff.mp h
  simp only [parses_iff, repairedContent_marking hlayout]
  constructor
  · rintro ⟨ms, hms, hg⟩
    obtain ⟨m, rfl, rfl⟩ := MarkedUsers.exists_marked (hms.before hlayout)
    exact ⟨m, rfl, hms, LoginUsers.tokens_inj (m.tokens_after.trans hg.symm)⟩
  · rintro ⟨m, rfl, hms, rfl⟩
    exact ⟨m.tokens, hms, m.tokens_after⟩

end Disping.Healing
