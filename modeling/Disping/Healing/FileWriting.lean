import Disping.Healing.LoginUsers
import Disping.Text.Integers

/-! # What a failed write leaves of the repaired files

RepairLoginUsersVdf and CleanCorruptedHtmlCache open their file anew, which empties it, and report
success without a look at the stream.
-/
namespace Disping.Healing

open Text

/-! The browser state. -/

/-- The first match holds a number above 2; none where std::stoi throws. -/
def countAbove (e : Expression) (content : List Char) : Option Bool :=
  match regexSearch e content with
  | some (_, x) => (stoi ((x.groups 1).getD [])).toOption.map fun val => decide (val > 2)
  | none => some false

def streakPattern : List Char := "\"variations_crash_streak\"\\s*:\\s*([0-9]+)".toList

def crashPattern : List Char := "\"system_crash_count\"\\s*:\\s*([0-9]+)".toList

/-- What the search for the two counts ends with. -/
inductive Inspection
  | thrown
  | clean
  | dirty (new : List Char)

def inspect (content : List Char) : Inspection :=
  match regex streakPattern false, regex crashPattern false with
  | some reStreak, some reSysCrash =>
    match countAbove reStreak content, countAbove reSysCrash content with
    | some streak, some crashed =>
      if streak || crashed then
        .dirty (regexReplace reSysCrash "\"system_crash_count\":0".toList
          (regexReplace reStreak "\"variations_crash_streak\":0".toList content))
      else .clean
    | _, _ => .thrown
  | _, _ => .thrown

/-- What CleanCorruptedHtmlCache finds on its way to `Local State`; fs::exists throws on none. -/
structure CacheCalls where
  localAppData : Bool
  htmlCache : Option Bool
  localState : Option Bool
  readable : Bool

/-- The file is reached and read. -/
def CacheCalls.Reads (calls : CacheCalls) : Prop :=
  calls.localAppData = true ∧ calls.htmlCache = some true ∧ calls.localState = some true ∧
    calls.readable = true

def cleanCorruptedHtmlCache (calls : CacheCalls) (out : WriteOutcome) (content : List Char) : Ended :=
  if !calls.localAppData then ⟨some false, content⟩
  else
    match calls.htmlCache with
    | none => ⟨none, content⟩
    | some false => ⟨some false, content⟩
    | some true =>
      match calls.localState with
      | none => ⟨none, content⟩
      | some false => ⟨some false, content⟩
      | some true =>
        if calls.readable then
          match inspect content with
          | .thrown => ⟨some false, content⟩
          | .clean => ⟨some false, content⟩
          | .dirty new => writeFile out content new
        else ⟨some false, content⟩

/-- The content that the cleaning is to leave. -/
def cleanedContent (content : List Char) : List Char :=
  match inspect content with
  | .dirty new => new
  | _ => content

/-- The file is whole, and it is the new one where the function returns true. -/
structure Whole (old new : List Char) (e : Ended) : Prop where
  content : e.content = old ∨ e.content = new
  returned : e.returned = some true → e.content = new

/-- The write ends before the last byte. -/
def WriteOutcome.Cuts (out : WriteOutcome) (new : List Char) : Prop :=
  out.opened = true ∧ out.reached < new.length

variable {out : WriteOutcome} {old new content : List Char}

theorem whole_unchanged {returned : Option Bool} (h : returned ≠ some true) :
    Whole old new ⟨returned, old⟩ :=
  ⟨.inl rfl, fun htrue => absurd htrue h⟩

theorem writeFile_whole_iff : Whole old new (writeFile out old new) ↔ ¬ out.Cuts new := by
  unfold writeFile WriteOutcome.Cuts
  cases out.opened with
  | false => exact iff_of_true (whole_unchanged nofun) nofun
  | true =>
    constructor
    · rintro ⟨-, hreturned⟩ ⟨-, hcut⟩
      have hall : new.take out.reached = new := hreturned rfl
      have hlength := congrArg List.length hall
      rw [List.length_take] at hlength
      omega
    · intro hlong
      have hall : new.take out.reached = new :=
        List.take_of_length_le (Nat.not_lt.mp fun hcut => hlong ⟨rfl, hcut⟩)
      exact ⟨.inr hall, fun _ => hall⟩

theorem repairLoginUsersFile_whole_iff (readable : Bool) (autoUser : List Char) :
    Whole content ((repairedContent autoUser content).getD content)
        (repairLoginUsersFile readable out autoUser content) ↔
      (readable = true → content ≠ [] → ∀ new, repairedContent autoUser content = some new →
        ¬ out.Cuts new) := by
  unfold repairLoginUsersFile
  cases readable with
  | false => exact iff_of_true (whole_unchanged nofun) nofun
  | true =>
    by_cases hempty : content = []
    · simp only [hempty, Bool.not_true, Bool.false_eq_true, if_false, if_true]
      exact iff_of_true (whole_unchanged nofun) fun _ hne => absurd rfl hne
    · cases hnew : repairedContent autoUser content with
      | none =>
        simp only [hempty, Bool.not_true, Bool.false_eq_true, if_false]
        exact iff_of_true (whole_unchanged nofun) nofun
      | some new =>
        simp only [hempty, Bool.not_true, Bool.false_eq_true, if_false, Option.getD_some]
        rw [writeFile_whole_iff]
        refine ⟨fun huncut _ _ new' hnew' => ?_, fun h => h trivial hempty new rfl⟩
        cases hnew'
        exact huncut

theorem cleanCorruptedHtmlCache_unread {calls : CacheCalls} (h : ¬ calls.Reads) :
    ∃ returned, returned ≠ some true ∧
      cleanCorruptedHtmlCache calls out content = ⟨returned, content⟩ := by
  obtain ⟨localAppData, htmlCache, localState, readable⟩ := calls
  cases localAppData with
  | false => exact ⟨some false, nofun, rfl⟩
  | true =>
    rcases htmlCache with _ | _ | _
    · exact ⟨none, nofun, rfl⟩
    · exact ⟨some false, nofun, rfl⟩
    · rcases localState with _ | _ | _
      · exact ⟨none, nofun, rfl⟩
      · exact ⟨some false, nofun, rfl⟩
      · cases readable with
        | false => exact ⟨some false, nofun, rfl⟩
        | true => exact absurd ⟨rfl, rfl, rfl, rfl⟩ h

theorem cleanCorruptedHtmlCache_whole_iff (calls : CacheCalls) :
    Whole content (cleanedContent content) (cleanCorruptedHtmlCache calls out content) ↔
      (calls.Reads → ∀ new, inspect content = .dirty new → ¬ out.Cuts new) := by
  by_cases hreads : calls.Reads
  · obtain ⟨happData, hcache, hstate, hreadable⟩ := hreads
    unfold cleanCorruptedHtmlCache cleanedContent
    simp only [happData, hcache, hstate, hreadable, Bool.not_true, Bool.false_eq_true, if_false,
      if_true]
    cases hinspect : inspect content with
    | thrown => exact iff_of_true (whole_unchanged nofun) nofun
    | clean => exact iff_of_true (whole_unchanged nofun) nofun
    | dirty new =>
      rw [writeFile_whole_iff]
      refine ⟨fun huncut _ new' hnew' => ?_, fun h => h ⟨happData, hcache, hstate, hreadable⟩ new rfl⟩
      cases hnew'
      exact huncut
  · refine iff_of_true ?_ fun h => absurd h hreads
    obtain ⟨returned, hfalse, hsame⟩ := cleanCorruptedHtmlCache_unread hreads
    rw [hsame]
    exact whole_unchanged hfalse

/-- Both functions leave a whole file and a true answer exactly when no write that they begin is
cut. -/
theorem repairs_whole_iff (readable : Bool) (calls : CacheCalls) (out : WriteOutcome)
    (autoUser vdf localState : List Char) :
    (Whole vdf ((repairedContent autoUser vdf).getD vdf)
        (repairLoginUsersFile readable out autoUser vdf) ↔
      (readable = true → vdf ≠ [] → ∀ new, repairedContent autoUser vdf = some new →
        ¬ out.Cuts new)) ∧
      (Whole localState (cleanedContent localState) (cleanCorruptedHtmlCache calls out localState) ↔
        (calls.Reads → ∀ new, inspect localState = .dirty new → ¬ out.Cuts new)) :=
  ⟨repairLoginUsersFile_whole_iff readable autoUser, cleanCorruptedHtmlCache_whole_iff calls⟩

/-- Where an account reads as the last one, no user name leaves the file as it is. -/
theorem repairedContent_recent (h : pairText "MostRecent" "1" <:+: content) :
    repairedContent [] content = some content := by
  unfold repairedContent repairFirst
  rw [if_neg (not_not.mpr rfl), if_pos (.inl h)]

/-- A file in which an account reads as the last one. -/
def recentFile : List Char :=
  "\"users\"\x7b\"7\"\x7b\"AccountName\" \"bob\" ".toList ++ pairText "MostRecent" "1" ++ "\x7d\x7d".toList

/-- The disk is full: no byte of the file is kept, and the function returns true. -/
theorem not_repairs_whole_diskFull :
    ¬ ∀ (readable : Bool) (calls : CacheCalls) (out : WriteOutcome)
      (autoUser vdf localState : List Char),
      Whole vdf ((repairedContent autoUser vdf).getD vdf)
          (repairLoginUsersFile readable out autoUser vdf) ∧
        Whole localState (cleanedContent localState)
          (cleanCorruptedHtmlCache calls out localState) := by
  intro h
  have hnew : repairedContent [] recentFile = some recentFile :=
    repairedContent_recent (List.infix_append _ _ _)
  have hsome : recentFile ≠ [] := by
    intro hnil
    have hpair : pairText "MostRecent" "1" = [] :=
      (List.append_eq_nil_iff.mp (List.append_eq_nil_iff.mp hnil).1).2
    exact List.cons_ne_nil _ _ hpair
  generalize recentFile = vdf at hnew hsome
  have hfull := (h true ⟨false, none, none, false⟩ ⟨true, 0⟩ [] vdf []).1
  rw [repairLoginUsersFile_whole_iff] at hfull
  exact hfull rfl hsome vdf hnew ⟨rfl, List.length_pos_iff.mpr hsome⟩

end Disping.Healing
