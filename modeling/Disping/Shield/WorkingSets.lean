import Disping.Shield.VpnGuard

/-! # Whose working sets are emptied

The memory cleaner passes over two lists of its own and the VPN guard's. The games that the booster
looks for are a fourth list, and most of them are not in the cleaner's.
-/
namespace Disping.Shield

open Host Tweaks

structure ProcessEntry where
  th32ProcessID : BitVec 32
  szExeFile : WideString
deriving DecidableEq

/-- The answers to the calls on a process. -/
structure ProcessCalls where
  openQuota : BitVec 32 → Bool
  emptyWorkingSet : BitVec 32 → Bool
  openQuery : BitVec 32 → Bool
  priorityClass : BitVec 32 → BitVec 32
  affinityMask : BitVec 32 → BitVec 64

/-- What was not asked stays unset. -/
structure RunningProcessInfo where
  pid : BitVec 32
  name : String
  priorityClass : Option (BitVec 32) := none
  affinityMask : Option (BitVec 64) := none

def knownGameExecutables : List String :=
  ["cs2.exe", "csgo.exe", "valorant.exe", "VALORANT-Win64-Shipping.exe", "dota2.exe", "r5apex.exe",
   "FortniteClient-Win64-Shipping.exe", "Overwatch.exe", "RustClient.exe", "EscapeFromTarkov.exe",
   "RainbowSix.exe", "Warzone.exe", "ModernWarfare.exe", "RocketLeague.exe", "League of Legends.exe",
   "GTA5.exe", "cyberpunk2077.exe"]

section Calls
variable (calls : ProcessCalls)

def runningProcess (pe : ProcessEntry) : RunningProcessInfo :=
  let info : RunningProcessInfo := { pid := pe.th32ProcessID, name := narrow pe.szExeFile }
  if calls.openQuery pe.th32ProcessID then
    { info with
      priorityClass := some (calls.priorityClass pe.th32ProcessID)
      affinityMask := some (calls.affinityMask pe.th32ProcessID) }
  else info

def isKnownGame (exeName : String) : Bool :=
  knownGameExecutables.any fun kg => lowercase exeName = lowercase kg

/-- The loop over the entries. -/
def activeGames : List ProcessEntry → List RunningProcessInfo
  | [] => []
  | pe :: rest =>
    if isKnownGame (narrow pe.szExeFile) then runningProcess calls pe :: activeGames rest
    else activeGames rest

def findActiveGames (snapshot : Option (List ProcessEntry)) : List RunningProcessInfo :=
  match snapshot with
  | none => []
  | some entries => activeGames calls entries

def gamingProtected : List String :=
  ["steam.exe", "steamwebhelper.exe", "steamservice.exe", "gameoverlayui.exe",
   "cs2.exe", "csgo.exe", "valorant.exe", "dota2.exe", "r5apex.exe",
   "discord.exe", "epicgameslauncher.exe", "riotclientservices.exe",
   "nvcontainer.exe", "amdrsserv.exe", "amdfendrs.exe", "dwmp.exe", "dwm.exe"]

/-- The entries whose working set the loop empties. -/
def emptied : List ProcessEntry → List ProcessEntry
  | [] => []
  | pe :: rest =>
    if pe.th32ProcessID = 0 ∨ pe.th32ProcessID = 4 then emptied rest
    else
      let lowerExe := lowercase (narrow pe.szExeFile)
      if isProcessProtected lowerExe then emptied rest
      else if gamingProtected.any fun gp => lowerExe = gp then emptied rest
      else if calls.openQuota pe.th32ProcessID && calls.emptyWorkingSet pe.th32ProcessID then
        pe :: emptied rest
      else emptied rest

/-- The outcome of a flush; without a snapshot the program empties its own working set. -/
structure Flush where
  processes : List ProcessEntry := []
  ownProcess : Bool := false
  result : OperationResult

def emptyAllWorkingSets (snapshot : Option (List ProcessEntry)) : Flush :=
  match snapshot with
  | none =>
    { ownProcess := true
      result := { success := true, message := "Emptied current process working set." } }
  | some entries =>
    let processes := emptied calls entries
    { processes := processes
      result := { success := true
                  message := "Emptied working sets across " ++ toString processes.length
                    ++ " running processes." } }

end Calls

/-! Lowercase names. -/

theorem toLower_toLower (c : Char) : c.toLower.toLower = c.toLower := by
  by_cases hc : c.val ≥ 'A'.val ∧ c.val ≤ 'Z'.val
  · have hbounds : 65 ≤ c.val.toNat ∧ c.val.toNat ≤ 90 := hc
    have hval : c.toLower.val.toNat = c.val.toNat + 32 := by
      have hlarge : c.toLower.val = c.val + 32 := congrArg Char.val (dif_pos hc)
      have hsmall : c.val.toNat + 32 < 2 ^ 32 := by omega
      rw [hlarge, UInt32.toNat_add]
      exact Nat.mod_eq_of_lt hsmall
    have hlower : ¬ (c.toLower.val ≥ 'A'.val ∧ c.toLower.val ≤ 'Z'.val) := by
      intro h
      have hagain : 65 ≤ c.toLower.val.toNat ∧ c.toLower.val.toNat ≤ 90 := h
      omega
    exact dif_neg hlower
  · have hkept : c.toLower = c := dif_neg hc
    rw [hkept, hkept]

theorem lowercase_lowercase (s : String) : lowercase (lowercase s) = lowercase s := by
  simp only [lowercase, String.toList_ofList, List.map_map, Function.comp_def, toLower_toLower]

theorem isProcessProtected_lowercase (s : String) :
    isProcessProtected (lowercase s) = isProcessProtected s := by
  rw [isProcessProtected, isProcessProtected, lowercase_lowercase]

/-! What the two loops take. -/

/-- An entry that the loop passes over for none of its reasons. -/
structure Flushed (calls : ProcessCalls) (pe : ProcessEntry) : Prop where
  user : pe.th32ProcessID ≠ 0 ∧ pe.th32ProcessID ≠ 4
  unprotected : isProcessProtected (narrow pe.szExeFile) = false
  unlisted : lowercase (narrow pe.szExeFile) ∉ gamingProtected
  opened : calls.openQuota pe.th32ProcessID = true
  done : calls.emptyWorkingSet pe.th32ProcessID = true

section Loops
variable {calls : ProcessCalls}

theorem emptied_cons_of_flushed {pe : ProcessEntry} (h : Flushed calls pe) (rest : List ProcessEntry) :
    emptied calls (pe :: rest) = pe :: emptied calls rest := by
  have huser : ¬ (pe.th32ProcessID = 0 ∨ pe.th32ProcessID = 4) := not_or.mpr h.user
  have hlist : ¬ (gamingProtected.any fun gp => lowercase (narrow pe.szExeFile) = gp) = true := by
    simpa using h.unlisted
  rw [emptied, if_neg huser, if_neg (by rw [isProcessProtected_lowercase, h.unprotected]; exact Bool.false_ne_true),
    if_neg hlist, if_pos (by rw [h.opened, h.done]; rfl)]

theorem emptied_cons_of_not_flushed {pe : ProcessEntry} (h : ¬ Flushed calls pe) (rest : List ProcessEntry) :
    emptied calls (pe :: rest) = emptied calls rest := by
  rw [emptied]
  by_cases huser : pe.th32ProcessID = 0 ∨ pe.th32ProcessID = 4
  · rw [if_pos huser]
  · rw [if_neg huser]
    by_cases hprotected : isProcessProtected (lowercase (narrow pe.szExeFile)) = true
    · rw [if_pos hprotected]
    · rw [if_neg hprotected]
      by_cases hlisted : (gamingProtected.any fun gp => lowercase (narrow pe.szExeFile) = gp) = true
      · rw [if_pos hlisted]
      · rw [if_neg hlisted]
        refine if_neg fun hcalls => h ?_
        rw [isProcessProtected_lowercase, Bool.not_eq_true] at hprotected
        rw [Bool.and_eq_true] at hcalls
        exact ⟨not_or.mp huser, hprotected, by simpa using hlisted, hcalls.1, hcalls.2⟩

theorem mem_emptied {entries : List ProcessEntry} {pe : ProcessEntry} :
    pe ∈ emptied calls entries ↔ pe ∈ entries ∧ Flushed calls pe := by
  induction entries with
  | nil => simp [emptied]
  | cons e rest ih =>
    by_cases h : Flushed calls e
    · rw [emptied_cons_of_flushed h, List.mem_cons, List.mem_cons, ih]
      constructor
      · rintro (rfl | ⟨hmem, hflushed⟩)
        · exact ⟨.inl rfl, h⟩
        · exact ⟨.inr hmem, hflushed⟩
      · rintro ⟨rfl | hmem, hflushed⟩
        · exact .inl rfl
        · exact .inr ⟨hmem, hflushed⟩
    · rw [emptied_cons_of_not_flushed h, ih, List.mem_cons]
      constructor
      · rintro ⟨hmem, hflushed⟩
        exact ⟨.inr hmem, hflushed⟩
      · rintro ⟨rfl | hmem, hflushed⟩
        · exact absurd hflushed h
        · exact ⟨hmem, hflushed⟩

theorem mem_activeGames {entries : List ProcessEntry} {info : RunningProcessInfo} :
    info ∈ activeGames calls entries ↔
      ∃ pe ∈ entries, isKnownGame (narrow pe.szExeFile) = true ∧ info = runningProcess calls pe := by
  induction entries with
  | nil => simp [activeGames]
  | cons e rest ih =>
    by_cases h : isKnownGame (narrow e.szExeFile) = true
    · simp [activeGames, h, ih]
    · simp [activeGames, h, ih]

@[simp] theorem runningProcess_pid (pe : ProcessEntry) : (runningProcess calls pe).pid = pe.th32ProcessID := by
  unfold runningProcess
  split <;> rfl

@[simp] theorem runningProcess_name (pe : ProcessEntry) : (runningProcess calls pe).name = narrow pe.szExeFile := by
  unfold runningProcess
  split <;> rfl

end Loops

/-- The known games that the cleaner does not pass over, in lower case. -/
def unshieldedGames : List String :=
  ["valorant-win64-shipping.exe", "fortniteclient-win64-shipping.exe", "overwatch.exe", "rustclient.exe",
   "escapefromtarkov.exe", "rainbowsix.exe", "warzone.exe", "modernwarfare.exe", "rocketleague.exe",
   "league of legends.exe", "gta5.exe", "cyberpunk2077.exe"]

theorem filter_knownGames :
    (knownGameExecutables.map lowercase).filter (· ∉ gamingProtected) = unshieldedGames := by
  decide

theorem unshieldedGames_unprotected : ∀ name ∈ unshieldedGames, isProcessProtected name = false := by
  decide

theorem isKnownGame_iff {exeName : String} :
    isKnownGame exeName = true ↔ lowercase exeName ∈ knownGameExecutables.map lowercase := by
  rw [isKnownGame, List.any_eq_true, List.mem_map]
  refine exists_congr fun kg => and_congr_right fun _ => ?_
  rw [decide_eq_true_iff]
  exact eq_comm

theorem mem_unshieldedGames {exeName : String} : lowercase exeName ∈ unshieldedGames ↔
    isKnownGame exeName = true ∧ lowercase exeName ∉ gamingProtected := by
  rw [← filter_knownGames, List.mem_filter, isKnownGame_iff, decide_eq_true_iff]

/-- An entry that may be emptied: not of the system, not of a VPN and no game of the snapshot. -/
structure Dispensable (calls : ProcessCalls) (entries : List ProcessEntry) (pe : ProcessEntry) : Prop where
  user : pe.th32ProcessID ≠ 0 ∧ pe.th32ProcessID ≠ 4
  unprotected : isProcessProtected (narrow pe.szExeFile) = false
  idle : ∀ game ∈ findActiveGames calls (some entries),
    ¬ (game.pid = pe.th32ProcessID ∧ game.name = narrow pe.szExeFile)

/-- The cleaner empties no game exactly when none of the games missing in its list can be opened. -/
theorem emptyAllWorkingSets_dispensable_iff (calls : ProcessCalls) (entries : List ProcessEntry) :
    (∀ pe ∈ (emptyAllWorkingSets calls (some entries)).processes, Dispensable calls entries pe) ↔
      ∀ pe ∈ entries, pe.th32ProcessID ≠ 0 → pe.th32ProcessID ≠ 4 → calls.openQuota pe.th32ProcessID = true →
        calls.emptyWorkingSet pe.th32ProcessID = true → lowercase (narrow pe.szExeFile) ∉ unshieldedGames := by
  have hprocesses : (emptyAllWorkingSets calls (some entries)).processes = emptied calls entries := rfl
  rw [hprocesses]
  constructor
  · intro h pe hpe hzero hfour hopen hempty hgame
    obtain ⟨hknown, hunlisted⟩ := mem_unshieldedGames.mp hgame
    have hunprotected : isProcessProtected (narrow pe.szExeFile) = false := by
      rw [← isProcessProtected_lowercase]
      exact unshieldedGames_unprotected _ hgame
    have hflushed : Flushed calls pe := ⟨⟨hzero, hfour⟩, hunprotected, hunlisted, hopen, hempty⟩
    have hidle := (h pe (mem_emptied.mpr ⟨hpe, hflushed⟩)).idle
    refine hidle (runningProcess calls pe) (mem_activeGames.mpr ⟨pe, hpe, hknown, rfl⟩) ?_
    exact ⟨runningProcess_pid pe, runningProcess_name pe⟩
  · intro h pe hpe
    obtain ⟨hmem, hflushed⟩ := mem_emptied.mp hpe
    refine ⟨hflushed.user, hflushed.unprotected, ?_⟩
    rintro game hgame ⟨-, hname⟩
    obtain ⟨e, -, hknown, rfl⟩ := mem_activeGames.mp hgame
    rw [runningProcess_name] at hname
    rw [hname] at hknown
    exact h pe hmem hflushed.user.1 hflushed.user.2 hflushed.opened hflushed.done
      (mem_unshieldedGames.mpr ⟨hknown, hflushed.unlisted⟩)

/-- Every process can be opened and emptied. -/
def allOpen : ProcessCalls where
  openQuota _ := true
  emptyWorkingSet _ := true
  openQuery _ := true
  priorityClass _ := 32
  affinityMask _ := 0xFF

/-- A match in progress. -/
def fortnite : ProcessEntry where
  th32ProcessID := 4200
  szExeFile := "FortniteClient-Win64-Shipping.exe".toList.map fun c => BitVec.ofNat 16 c.toNat

theorem not_dispensable_fortnite : ¬ ∀ calls entries,
    ∀ pe ∈ (emptyAllWorkingSets calls (some entries)).processes, Dispensable calls entries pe := by
  intro h
  have hnone := (emptyAllWorkingSets_dispensable_iff allOpen [fortnite]).mp (h allOpen [fortnite])
  exact hnone fortnite (List.mem_singleton_self _) (by decide) (by decide) rfl rfl (by decide)

end Disping.Shield
