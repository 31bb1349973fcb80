import Disping.Healing.MarkedFile

/-! # When the textual repair is the repair of the tree

The edits write over what stands behind the three keys, between two braces of the text. They repair the
account when these are its own values, and the pairs that they add stand in its own block.
-/
namespace Disping.Healing

open Text

/-! The repair of an account, string by string. -/

/-- The value that the repair gives a key. -/
def wanted (key : List Char) : Option (List Char) :=
  if key = mostRecent ∨ key = rememberPassword then some ['1']
  else if key = wantsOfflineMode then some ['0'] else none

/-- The pairs that the account gets. -/
def missing (e : Entries) : Entries := (e.absent mostRecent ['1']).append (e.absent rememberPassword ['1'])

theorem autoLogin_eq (e : Entries) : autoLogin e =
    (((e.setKey mostRecent ['1']).setKey rememberPassword ['1']).setKey wantsOfflineMode ['0']).append
      (missing e) := by
  have hkeys : mostRecent ≠ rememberPassword ∧ mostRecent ≠ wantsOfflineMode ∧
      rememberPassword ≠ wantsOfflineMode := by decide
  have hhas : ((e.setKey mostRecent ['1']).append (e.absent mostRecent ['1'])).HasKey rememberPassword ↔
      e.HasKey rememberPassword := by
    rw [Entries.hasKey_append, Entries.hasKey_setKey, or_iff_left (Entries.hasKey_absent e hkeys.1)]
  have habsent :
      ((e.setKey mostRecent ['1']).append (e.absent mostRecent ['1'])).absent rememberPassword ['1'] =
        e.absent rememberPassword ['1'] := if_congr hhas rfl rfl
  rw [autoLogin, Entries.setOrAdd_eq e, Entries.setOrAdd_eq, habsent, Entries.setKey_append,
    Entries.setKey_append, Entries.setKey_append, Entries.setKey_absent e hkeys.1,
    Entries.setKey_absent e hkeys.2.1, Entries.setKey_absent e hkeys.2.2, Entries.append_assoc, missing]

end Disping.Healing

namespace Disping.Text.Marked

open Healing

/-- Every value of the three keys is right, and nothing else is written over. -/
def Sets : Marked → Prop
  | nil => True
  | pair key value rest => key.Stays ∧ value.written = (wanted key.text).getD value.text ∧ rest.Sets
  | block name inner added rest => name.Stays ∧ inner.Stays ∧ added = [] ∧ rest.Sets

/-- Nothing is written over but values of the first account with the name, and the pairs that it has not
are added to it. -/
def Repairs (user : List Char) : Marked → Prop
  | nil => True
  | pair key value rest => key.Stays ∧ value.Stays ∧ rest.Repairs user
  | block name inner added rest => name.Stays ∧
    if Named user inner.before then inner.Sets ∧ written added = missing inner.before ∧ rest.Stays
    else inner.Stays ∧ added = [] ∧ rest.Repairs user

theorem after_append_eq_iff (m : Marked) {e others : Entries} :
    m.after.append others = (((m.before.setKey mostRecent ['1']).setKey rememberPassword ['1']).setKey
      wantsOfflineMode ['0']).append e ↔ m.Sets ∧ others = e := by
  induction m with
  | nil => simp [after, before, Entries.setKey, Entries.append, Sets]
  | pair key value rest ih =>
    have hvalue : (if key.text = wantsOfflineMode then ['0'] else if key.text = rememberPassword then ['1']
        else if key.text = mostRecent then ['1'] else value.text) = (wanted key.text).getD value.text := by
      unfold wanted
      by_cases hrecent : key.text = mostRecent
      · rw [hrecent]
        rfl
      by_cases hremember : key.text = rememberPassword
      · rw [hremember]
        rfl
      rw [if_neg hrecent, if_neg hremember, if_neg (not_or.mpr ⟨hrecent, hremember⟩)]
      split <;> rfl
    simp only [after, before, Entries.setKey, Entries.append, Sets, Entries.pair.injEq, ih, Cell.Stays,
      hvalue, and_assoc]
  | block name inner added rest _ ih =>
    simp only [after, before, Entries.setKey, Entries.append, Sets, Entries.block.injEq, ih, Cell.Stays,
      append_written_eq_before_iff, and_assoc]

theorem after_eq_repairNamed_iff {user : List Char} (m : Marked) :
    m.after = repairNamed user m.before ↔ m.Repairs user := by
  induction m with
  | nil => exact iff_of_true rfl trivial
  | pair key value rest ih =>
    simp only [after, before, repairNamed, Repairs, Entries.pair.injEq, Cell.Stays, ih]
  | block name inner added rest _ ih =>
    simp only [after, before, repairNamed, Repairs]
    split
    · simp only [Entries.block.injEq, autoLogin_eq, after_append_eq_iff, after_eq_before_iff, Cell.Stays,
        and_assoc]
    · simp only [Entries.block.injEq, append_written_eq_before_iff, ih, Cell.Stays, and_assoc]

end Disping.Text.Marked

namespace Disping.Healing

open Text

namespace MarkedUsers

/-- The strings that are written over are the account's own values, and the added pairs its own. -/
def Repairs (user : List Char) (m : MarkedUsers) : Prop :=
  m.root.Stays ∧ m.entries.Repairs user ∧ m.added = []

theorem length_pairs_repairNamed (user : List Char) (e : Entries) :
    (repairNamed user e).pairs.length = e.pairs.length := by
  induction e with
  | nil => rfl
  | pair key value rest ih => simp only [repairNamed, Entries.pairs, List.length_cons, ih]
  | block name inner rest _ ih =>
    unfold repairNamed
    split
    · rfl
    · exact ih

theorem after_eq_repaired_iff {user : List Char} (m : MarkedUsers) :
    m.after = m.before.repaired user ↔ m.Repairs user := by
  have hlength : m.entries.pairs.length = (repairNamed user m.entries.before).pairs.length := by
    rw [length_pairs_repairNamed, Marked.length_pairs_before]
  unfold after before LoginUsers.repaired Repairs
  rw [LoginUsers.mk.injEq, Marked.append_written_eq_iff _ hlength, Marked.after_eq_repairNamed_iff,
    Cell.Stays]

end MarkedUsers

/-! The promise and where it is kept. -/

theorem repairNamed_unnamed {user : List Char} {e : Entries} (h : ∀ a ∈ e.blocks, ¬ Named user a) :
    repairNamed user e = e := by
  induction e with
  | nil => rfl
  | pair key value rest ih => rw [repairNamed, ih h]
  | block name inner rest _ ih =>
    rw [repairNamed, if_neg (h inner List.mem_cons_self), ih fun a ha => h a (List.mem_cons_of_mem _ ha)]

/-- With the account in the file: the strings that are written over are its values. Without it: nothing is
written over. The name is the one that is read. -/
def Repairable (user content : List Char) (f : LoginUsers) : Prop :=
  let autoUser := autoUserOf (some (nameValue user))
  if ∃ e ∈ f.accounts, Named user e then
    ∃ m : MarkedUsers, m.before = f ∧ m.Marks autoUser content ∧ m.Repairs user
  else if autoUser = [] then SpelledOut content ∨ ¬ unset <:+: f.tokens
  else Unedited autoUser content

/-- An account whose last value reads as one of the keys. -/
def bob : Entries :=
  .pair "AccountName".toList "bob".toList (.pair mostRecent ['0'] (.pair rememberPassword ['1']
    (.pair "PersonaName".toList mostRecent .nil)))

def bobAlone : LoginUsers := ⟨"users".toList, .block "7".toList bob .nil⟩

def bobStrings : List Char :=
  ("\"AccountName\" \"bob\" \"MostRecent\" \"0\" \"RememberPassword\" \"1\" " ++
    "\"PersonaName\" \"MostRecent\"").toList

def bobText : List Char := "\"users\"\x7b\"7\"".toList ++ '\x7b' :: (bobStrings ++ ['\x7d', '\x7d'])

/-- One value is raised, and one written over with itself. -/
def bobRaised : Marked :=
  .pair (.kept "AccountName".toList) (.kept "bob".toList) (.pair (.kept mostRecent) ⟨['0'], some ['1']⟩
    (.pair (.kept rememberPassword) ⟨['1'], some ['1']⟩
      (.pair (.kept "PersonaName".toList) (.kept mostRecent) .nil)))

def bobMarked : MarkedUsers := ⟨.kept "users".toList, .block (.kept "7".toList) bobRaised [] .nil, []⟩

theorem cutOut_bob : CutOut "BOB".toList bobText "\"users\"\x7b\"7\"".toList bobStrings ['\x7d'] :=
  ⟨rfl, 12, by decide, by decide, by decide⟩

theorem inside_bob : Inside "\"users\"\x7b\"7\"".toList bobStrings ['\x7d']
    [.string "users".toList, .opening, .string "7".toList, .opening] bob.tokens [.closing, .closing] :=
  ⟨[], bobStrings, [], by decide, tokenize_eq_some_iff.mp (by decide), tokenize_eq_some_iff.mp (by decide),
    tokenize_eq_some_iff.mp (by decide), .inl rfl, .inl rfl⟩

theorem parses_bob : Parses bobText bobAlone := parses_iff.mpr inside_bob.layout

theorem marks_bob : bobMarked.Marks "BOB".toList bobText := by
  have hregion : markRegion bob.tokens = bobRaised.tokens ++ [] := by decide
  have hbefore : bobRaised.tokens.map MarkedToken.before = bob.tokens := by decide
  exact @Marking.cut _ _ _ _ _ _ _ _ _ _ [] (by decide) cutOut_bob inside_bob hregion hbefore (.inl rfl)

theorem repairs_bob : bobMarked.Repairs "BOB".toList := by
  have hnamed : Named "BOB".toList bobRaised.before := by decide
  have hentries : bobMarked.entries.Repairs "BOB".toList :=
    ⟨rfl, (if_pos hnamed).mpr ⟨⟨rfl, rfl, rfl, rfl, rfl, rfl, rfl, rfl, trivial⟩, rfl, trivial⟩⟩
  exact ⟨rfl, hentries, rfl⟩

/-- An account whose persona name holds a brace. -/
def bracedAlone : LoginUsers :=
  ⟨"users".toList, .block "7".toList (.pair "AccountName".toList "bob".toList
    (.pair "PersonaName".toList "\x7d:".toList .nil)) .nil⟩

def bracedText : List Char :=
  "\"users\"\x7b\"7\"\x7b\"AccountName\" \"bob\" \"PersonaName\"\"\x7d:\"\x7d\x7d".toList

end Disping.Healing
