import Disping.Healing.BlockEdits
import Disping.Text.Entries

/-! # What loginusers.vdf says

The file is one block; the blocks in it are the accounts, each with its pairs and whatever blocks of its
own.
-/
namespace Disping.Healing

open Text

structure LoginUsers where
  root : List Char
  entries : Entries
deriving DecidableEq

namespace LoginUsers

def tokens (f : LoginUsers) : List Token :=
  .string f.root :: .opening :: (f.entries.tokens ++ [.closing])

def accounts (f : LoginUsers) : List Entries := f.entries.blocks

end LoginUsers

/-- A well-formed text, with its tree. -/
def Parses (text : List Char) (f : LoginUsers) : Prop := tokenize text = some f.tokens

instance (text : List Char) (f : LoginUsers) : Decidable (Parses text f) :=
  inferInstanceAs (Decidable (_ = _))

theorem parses_iff {text : List Char} {f : LoginUsers} : Parses text f ↔ Layout f.tokens text :=
  tokenize_eq_some_iff

theorem LoginUsers.tokens_inj {f g : LoginUsers} (h : f.tokens = g.tokens) : f = g := by
  simp only [tokens, List.cons.injEq, Token.string.injEq, true_and] at h
  obtain ⟨hroot, hentries⟩ := h
  obtain ⟨root, entries⟩ := f
  obtain rfl : root = g.root := hroot
  obtain rfl : entries = g.entries := (Entries.tokens_closing_inj hentries).1
  rfl

/-- A text has one tree. -/
theorem Parses.unique {text : List Char} {f g : LoginUsers} (h : Parses text f) (h' : Parses text g) :
    f = g := LoginUsers.tokens_inj (Option.some.inj (h.symm.trans h'))

theorem Parses.ne_nil {text : List Char} {f : LoginUsers} (h : Parses text f) : text ≠ [] := by
  rintro rfl
  cases h

/-! The repair of the tree. -/

/-- Equality of names without regard to letter case. -/
def sameName (v w : List Char) : Prop := v.map Char.toLower = w.map Char.toLower

instance (v w : List Char) : Decidable (sameName v w) :=
  inferInstanceAs (Decidable (_ = _))

/-- The account has the name. -/
def Named (user : List Char) (e : Entries) : Prop :=
  ∃ p ∈ e.pairs, p.1 = "AccountName".toList ∧ sameName p.2 user

instance (user : List Char) (e : Entries) : Decidable (Named user e) :=
  inferInstanceAs (Decidable (∃ p ∈ e.pairs, _))

/-- An account that logs in by itself, online. -/
def autoLogin (e : Entries) : Entries :=
  ((e.setOrAdd mostRecent ['1']).setOrAdd rememberPassword ['1']).setKey wantsOfflineMode ['0']

/-- The first account with the name is repaired. -/
def repairNamed (user : List Char) : Entries → Entries
  | .nil => .nil
  | .pair key value rest => .pair key value (repairNamed user rest)
  | .block name inner rest =>
    if Named user inner then .block name (autoLogin inner) rest
    else .block name inner (repairNamed user rest)

def LoginUsers.repaired (user : List Char) (f : LoginUsers) : LoginUsers :=
  { f with entries := repairNamed user f.entries }

/-- The file is written with the tree of the repaired account, and as it was without one. -/
def WritesRepaired (user content : List Char) (f : LoginUsers) : Prop :=
  ∃ new, repairLoginUsersVdf ⟨true, true⟩ (some (nameValue user)) content = ⟨some true, new⟩ ∧
    Parses new (f.repaired user) ∧ ((∀ e ∈ f.accounts, ¬ Named user e) → new = content)

/-- The account of the last login. -/
def Flagged (e : Entries) : Prop := (mostRecent, ['1']) ∈ e.pairs

instance (e : Entries) : Decidable (Flagged e) := inferInstanceAs (Decidable (_ ∈ _))

def LoginUsers.flaggedCount (f : LoginUsers) : ℕ := f.accounts.countP fun e => decide (Flagged e)

/-- What is written has one flagged account at most. -/
def WritesOneFlag (user content : List Char) : Prop :=
  ∃ new g, repairLoginUsersVdf ⟨true, true⟩ (some (nameValue user)) content = ⟨some true, new⟩ ∧
    Parses new g ∧ g.flaggedCount ≤ 1

/-! What the function writes. -/

section Written
variable {autoLoginUser : Option Hive.RegValue} {content new : List Char}

/-- The name is read as it is where it fits the buffer, and as empty where it does not. -/
theorem autoUserOf_nameValue {user : List Char} (hzero : '\x00' ∉ user) :
    autoUserOf (some (nameValue user)) = if user.length < 1024 then user else [] := by
  have hread : (nameValue user).data.takeWhile (· ≠ '\x00') = user := by
    have hall : ∀ c ∈ user, decide (c ≠ '\x00') = true := fun c hc =>
      decide_eq_true fun heq => hzero (heq ▸ hc)
    rw [nameValue, List.takeWhile_append_of_pos hall]
    simp
  have hstring : Host.stringOf (nameValue user) = some (String.ofList user) := by
    have hsz : (nameValue user).type = .sz ∨ (nameValue user).type = .expandSz := .inl rfl
    rw [Host.stringOf, if_pos hsz, hread]
  have hdata : (nameValue user).data.length = user.length + 1 := by simp [nameValue]
  unfold autoUserOf Host.textOf
  by_cases hlength : user.length < 1024
  · rw [Option.filter_some_pos (by rw [hdata]; exact decide_eq_true hlength), Option.bind_some, hstring,
      if_pos hlength, Option.getD_some, String.toList_ofList]
  · rw [Option.filter_some_neg (by rw [hdata]; exact decide_eq_false hlength), if_neg hlength]
    rfl

theorem autoUserOf_short {user : List Char} (hzero : '\x00' ∉ user) (hlength : user.length < 1024) :
    autoUserOf (some (nameValue user)) = user :=
  (autoUserOf_nameValue hzero).trans (if_pos hlength)

theorem repairLoginUsersVdf_written (hcontent : content ≠ [])
    (hnew : repairedContent (autoUserOf autoLoginUser) content = some new) :
    repairLoginUsersVdf ⟨true, true⟩ autoLoginUser content = ⟨some true, new⟩ := by
  simp [repairLoginUsersVdf, repairLoginUsersFile, writeFile, hcontent, hnew]

theorem repairLoginUsersVdf_thrown (hcontent : content ≠ [])
    (hnew : repairedContent (autoUserOf autoLoginUser) content = none) :
    repairLoginUsersVdf ⟨true, true⟩ autoLoginUser content = ⟨none, content⟩ := by
  simp [repairLoginUsersVdf, repairLoginUsersFile, hcontent, hnew]

theorem repairLoginUsersVdf_eq_iff (hcontent : content ≠ []) :
    repairLoginUsersVdf ⟨true, true⟩ autoLoginUser content = ⟨some true, new⟩ ↔
      repairedContent (autoUserOf autoLoginUser) content = some new := by
  cases hrun : repairedContent (autoUserOf autoLoginUser) content with
  | none =>
    rw [repairLoginUsersVdf_thrown hcontent hrun]
    exact iff_of_false nofun nofun
  | some other =>
    rw [repairLoginUsersVdf_written hcontent hrun]
    simp

end Written

end Disping.Healing
