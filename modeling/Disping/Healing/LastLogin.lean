import Disping.Healing.AccountRepair

/-! # One account at most reads as the last login

The repair raises the values behind MostRecent between two braces of the text, or the first one in the file
that reads 0. It does not look at the accounts that are flagged already.
-/
namespace Disping.Healing

open Text

/-! What is written over in a file. -/

theorem takes_markRegion (mid : List Token) : ∀ t ∈ markRegion mid, t.Takes voc.values :=
  takes_markPairs Cut.mem_values.2 (takes_markOrAdd Cut.mem_values.1 (takes_markOrAdd Cut.mem_values.1
    (MarkedToken.takes_kept _ mid)))

theorem Marking.takes {autoUser content : List Char} {ts : List Token} {ms : List MarkedToken}
    (h : Marking autoUser content ts ms) : ∀ t ∈ ms, t.Takes voc.values := by
  have hkept := MarkedToken.takes_kept voc.values
  cases h with
  | uncut => exact hkept ts
  | unchanged => exact hkept ts
  | @raised l r =>
    simp only [raiseFirst, List.forall_mem_append, List.forall_mem_cons]
    exact ⟨hkept l, Cell.takes_kept _ _, Cell.takes_new Cut.mem_values.1 _, hkept r⟩
  | @cut _ _ _ pre mid post cells added _ _ _ hregion =>
    have hmid := takes_markRegion mid
    rw [hregion, List.forall_mem_append] at hmid
    simp only [List.forall_mem_append]
    exact ⟨hkept pre, hmid.1, MarkedToken.takes_attach (MarkedToken.takes_pairs hmid.2) (hkept post)⟩

/-! The flags. -/

/-- MostRecent stays, and its value reads 1 or is raised to it. -/
def Raises (p : Added) : Prop := p.1 = .kept mostRecent ∧ (p.2 = .kept ['1'] ∨ p.2.new = some ['1'])

instance : DecidablePred Raises := fun _ => inferInstanceAs (Decidable (_ ∧ _))

/-- The account keeps the flag or gets it. -/
def KeepsFlag (b : Marked × List Added) : Prop := ∃ p ∈ b.1.pairs ++ b.2, Raises p

instance : DecidablePred KeepsFlag := fun b => inferInstanceAs (Decidable (∃ p ∈ b.1.pairs ++ b.2, _))

theorem written_one_iff (c : Cell) : c.written = ['1'] ↔ c = .kept ['1'] ∨ c.new = some ['1'] := by
  obtain ⟨old, new⟩ := c
  cases new <;> simp [Cell.written, Cell.kept]

theorem flagged_after_iff {b : Marked × List Added}
    (htakes : ∀ p ∈ b.1.pairs ++ b.2, p.1.Takes voc.values ∧ p.2.Takes voc.values) :
    Flagged (b.1.after.append (Marked.written b.2)) ↔ KeepsFlag b := by
  have hother : mostRecent ∉ voc.values := by decide
  rw [Flagged, Entries.pairs_append, Marked.pairs_after, Marked.pairs_written, ← List.map_append,
    List.mem_map, KeepsFlag]
  refine exists_congr fun p => and_congr_right fun hp => ?_
  rw [Prod.mk.injEq, Cell.written_eq_iff (htakes p hp).1 hother, written_one_iff, Raises]

theorem flaggedCount_after {autoUser content : List Char} {m : MarkedUsers}
    (h : m.Marks autoUser content) :
    m.after.flaggedCount = m.entries.blocks.countP fun b => decide (KeepsFlag b) := by
  have htakes : ∀ t ∈ m.entries.tokens, t.Takes voc.values := by
    intro t ht
    apply h.takes
    simp [MarkedUsers.tokens, ht]
  have hblocks : m.after.accounts = m.entries.blocks.map fun b => b.1.after.append (Marked.written b.2) := by
    rw [LoginUsers.accounts, MarkedUsers.after, Entries.blocks_append, Marked.blocks_written, List.append_nil,
      Marked.blocks_after]
  rw [LoginUsers.flaggedCount, hblocks, List.countP_map]
  apply List.countP_congr
  intro b hb
  have hflagged := flagged_after_iff (Marked.takes_blocks htakes hb)
  simpa using hflagged

/-- One account at most keeps the flag or gets it. -/
def KeepsOneFlag (user content : List Char) (f : LoginUsers) : Prop :=
  ∃ m : MarkedUsers, m.before = f ∧ m.Marks (autoUserOf (some (nameValue user))) content ∧
    m.entries.blocks.countP (fun b => decide (KeepsFlag b)) ≤ 1

/-- A flagged account whose last string holds the brace that ends the block. -/
def ann : LoginUsers :=
  ⟨"users".toList, .block "1".toList (.pair "AccountName".toList "ann".toList (.pair mostRecent ['1']
    (.pair rememberPassword ['1'] (.pair "PersonaName".toList ['\x7d'] .nil)))) .nil⟩

def annStrings : List Char :=
  "\"AccountName\" \"ann\" \"MostRecent\" \"1\" \"RememberPassword\" \"1\" \"PersonaName\" ".toList

def annText : List Char :=
  "\"users\"\x7b\"1\"".toList ++ '\x7b' :: ((annStrings ++ ['"']) ++ '\x7d' :: "\"\x7d\x7d".toList)

def annMarked : MarkedUsers :=
  ⟨.kept "users".toList, .block (.kept "1".toList) (.pair (.kept "AccountName".toList) (.kept "ann".toList)
    (.pair (.kept mostRecent) ⟨['1'], some ['1']⟩ (.pair (.kept rememberPassword) ⟨['1'], some ['1']⟩
      (.pair (.kept "PersonaName".toList) (.kept ['\x7d']) .nil)))) [] .nil, []⟩

theorem cutOut_ann : CutOut "ann".toList annText "\"users\"\x7b\"1\"".toList (annStrings ++ ['"'])
    "\"\x7d\x7d".toList :=
  ⟨rfl, 12, by decide, by decide, by decide⟩

theorem inside_ann : Inside "\"users\"\x7b\"1\"".toList (annStrings ++ ['"']) "\"\x7d\x7d".toList
    (ann.tokens.take 4) ((ann.tokens.drop 4).take 7) (ann.tokens.drop 11) :=
  ⟨[], annStrings, ['"'], rfl, tokenize_eq_some_iff.mp (by decide), tokenize_eq_some_iff.mp (by decide),
    tokenize_eq_some_iff.mp (by decide), .inl rfl, .inr ⟨[], rfl, by decide⟩⟩

theorem parses_ann : Parses annText ann := parses_iff.mpr inside_ann.layout

theorem marks_ann : annMarked.Marks "ann".toList annText := by
  have hregion : markRegion ((ann.tokens.drop 4).take 7) = (annMarked.tokens.drop 4).take 7 ++ [] := by decide
  have hbefore : ((annMarked.tokens.drop 4).take 7).map MarkedToken.before = (ann.tokens.drop 4).take 7 := by
    decide
  exact @Marking.cut _ _ _ _ _ _ _ _ _ _ [] (by decide) cutOut_ann inside_ann hregion hbefore (.inl rfl)

/-- The last login of another account, which the repair of this one leaves. -/
def annAndBob : LoginUsers :=
  ⟨"users".toList, .block "1".toList (.pair "AccountName".toList "ann".toList (.pair mostRecent ['1'] .nil))
    (.block "2".toList (.pair "AccountName".toList "bob".toList .nil) .nil)⟩

def annAndBobText : List Char :=
  ("\"users\"\x7b\"1\"\x7b\"AccountName\" \"ann\" \"MostRecent\" \"1\"\x7d" ++
    "\"2\"\x7b\"AccountName\" \"bob\"\x7d\x7d").toList

/-- What is left of the file when bob's account is flagged too. -/
def bothFlagged : LoginUsers :=
  ⟨"users".toList, .block "1".toList (.pair "AccountName".toList "ann".toList (.pair mostRecent ['1'] .nil))
    (.block "2".toList (.pair "AccountName".toList "bob".toList (.pair mostRecent ['1']
      (.pair rememberPassword ['1'] .nil))) .nil)⟩

end Disping.Healing
