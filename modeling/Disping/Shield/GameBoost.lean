import Disping.Shield.WorkingSets
import Disping.Hardware.CoreTopology
import Disping.Transition.KeyedChanges

/-! # The boosts of games

A boost raises the priority of the processes that it finds by name and pins them to the processors
of the affinity mask. The user names the process, or all known games are taken; only the first way
asks the VPN guard.
-/
namespace Disping.Shield

open Host Tweaks Hardware Transition

/-- What a boost sets of a process. -/
structure Settings where
  priorityClass : BitVec 32
  affinityMask : BitVec 64
deriving DecidableEq

abbrev ProcessSettings := BitVec 32 → Settings

/-- HIGH_PRIORITY_CLASS. -/
def highPriorityClass : BitVec 32 := 0x80

/-- The answers to the calls of a boost. -/
structure BoostCalls where
  openSetInformation : BitVec 32 → Bool
  setPriorityClass : BitVec 32 → Bool
  setProcessAffinityMask : BitVec 32 → Bool

def getPhysicalCoresAffinityMask (m : MachineView) : BitVec 64 := (detectHardware m).optimalGameAffinityMask

section Boosting
variable (m : MachineView) (calls : BoostCalls)

def boostProcess (pid : BitVec 32) (pinToPerformanceCores : Bool) (settings : ProcessSettings) :
    OperationResult × ProcessSettings :=
  if calls.openSetInformation pid then
    let prioSuccess := calls.setPriorityClass pid
    let settings :=
      if prioSuccess then
        Function.update settings pid { settings pid with priorityClass := highPriorityClass }
      else settings
    let affSuccess := if pinToPerformanceCores then calls.setProcessAffinityMask pid else true
    let settings :=
      if pinToPerformanceCores && affSuccess then
        Function.update settings pid
          { settings pid with affinityMask := getPhysicalCoresAffinityMask m }
      else settings
    if prioSuccess then
      ({ success := true
         message := "Boosted PID " ++ toString pid.toNat ++ " to HIGH_PRIORITY_CLASS"
           ++ (if affSuccess && pinToPerformanceCores then " and pinned to isolated gaming cores." else ".") },
        settings)
    else ({ success := false, message := "Failed to elevate process priority." }, settings)
  else
    ({ success := false
       message := "Failed to open process PID " ++ toString pid.toNat ++ " (access denied or terminated)." },
      settings)

/-- The loop over the entries. -/
def boostEntries (processName : String) (pinToPerformanceCores : Bool) :
    List ProcessEntry → ℕ → ProcessSettings → ℕ × ProcessSettings
  | [], boosted, settings => (boosted, settings)
  | pe :: rest, boosted, settings =>
    if lowercase (narrow pe.szExeFile) = lowercase processName then
      let r := boostProcess m calls pe.th32ProcessID pinToPerformanceCores settings
      boostEntries processName pinToPerformanceCores rest (if r.1.success then boosted + 1 else boosted) r.2
    else boostEntries processName pinToPerformanceCores rest boosted settings

def boostProcessByName (snapshot : Option (List ProcessEntry)) (processName : String)
    (pinToPerformanceCores : Bool) (settings : ProcessSettings) : OperationResult × ProcessSettings :=
  if isProcessProtected processName then
    ({ success := false
       message := "[VPN SHIELD] Process [" ++ processName
         ++ "] is a protected VPN / DPI bypass service. Modified affinity skipped for stability." }, settings)
  else
    match snapshot with
    | none => ({ success := false, message := "Failed to snapshot processes." }, settings)
    | some entries =>
      let (boosted, settings) := boostEntries m calls processName pinToPerformanceCores entries 0 settings
      if boosted > 0 then
        ({ success := true
           message := "Boosted " ++ toString boosted ++ " instance(s) of [" ++ processName ++ "]." }, settings)
      else
        ({ success := false, message := "Process [" ++ processName ++ "] was not found running." }, settings)

/-- The loop over the games. -/
def boostGames : List RunningProcessInfo → ℕ → ProcessSettings → ℕ × ProcessSettings
  | [], count, settings => (count, settings)
  | g :: rest, count, settings =>
    let r := boostProcess m calls g.pid true settings
    boostGames rest (if r.1.success then count + 1 else count) r.2

/-- The healing that comes first is left out. -/
def autoBoostAllActiveGames (queries : ProcessCalls) (snapshot : Option (List ProcessEntry))
    (settings : ProcessSettings) : OperationResult × ProcessSettings :=
  let games := findActiveGames queries snapshot
  if games = [] then
    ({ success := true
       message := "No active known game processes detected at this moment (Steam and platform locks verified healthy)." },
      settings)
  else
    let (count, settings) := boostGames m calls games 0 settings
    ({ success := decide (count > 0)
       message := "Auto-boosted " ++ toString count ++ " active game process(es) (High Priority & Core Isolation)." },
      settings)

end Boosting

/-! Boosts one after the other, each at its own moment. -/

inductive Boost
  | byName (processName : String) (pinToPerformanceCores : Bool)
  | automatic

/-- What a boost finds and what the system answers. -/
structure Moment where
  snapshot : Option (List ProcessEntry)
  queries : ProcessCalls
  calls : BoostCalls

def Moment.entries (moment : Moment) : List ProcessEntry := moment.snapshot.getD []

namespace Boost

def apply (m : MachineView) (moment : Moment) : Boost → ProcessSettings → OperationResult × ProcessSettings
  | byName processName pin, settings =>
    boostProcessByName m moment.calls moment.snapshot processName pin settings
  | automatic, settings =>
    autoBoostAllActiveGames m moment.calls moment.queries moment.snapshot settings

def pins : Boost → Bool
  | byName _ pin => pin
  | automatic => true

/-- The entries that a boost is meant for. -/
def wants : Boost → ProcessEntry → Bool
  | byName processName _, pe =>
    !isProcessProtected processName && decide (lowercase (narrow pe.szExeFile) = lowercase processName)
  | automatic, pe => isKnownGame (narrow pe.szExeFile)

def targets (b : Boost) (moment : Moment) : List (BitVec 32) :=
  (moment.entries.filter b.wants).map ProcessEntry.th32ProcessID

def raises (b : Boost) (moment : Moment) (pid : BitVec 32) : Bool :=
  (b.targets moment).contains pid && moment.calls.openSetInformation pid && moment.calls.setPriorityClass pid

def repins (b : Boost) (moment : Moment) (pid : BitVec 32) : Bool :=
  (b.targets moment).contains pid && moment.calls.openSetInformation pid &&
    (b.pins && moment.calls.setProcessAffinityMask pid)

end Boost

def runBoosts (m : MachineView) (boosts : List (Boost × Moment)) (settings : ProcessSettings) :
    ProcessSettings :=
  boosts.foldl (fun settings b => (b.1.apply m b.2 settings).2) settings

/-! Every boost is a sequence of changes at single processes. -/

/-- What a boost does to one process. -/
def afterBoost (m : MachineView) (calls : BoostCalls) (pin : Bool) (pid : BitVec 32) (s : Settings) :
    Settings :=
  if calls.openSetInformation pid then
    { priorityClass := if calls.setPriorityClass pid then highPriorityClass else s.priorityClass
      affinityMask :=
        if pin && calls.setProcessAffinityMask pid then getPhysicalCoresAffinityMask m else s.affinityMask }
  else s

section Changes
variable {m : MachineView} {calls : BoostCalls} {pin : Bool} {settings : ProcessSettings} {pid : BitVec 32}

theorem afterBoost_afterBoost (pid : BitVec 32) (s : Settings) :
    afterBoost m calls pin pid (afterBoost m calls pin pid s) = afterBoost m calls pin pid s := by
  unfold afterBoost
  by_cases hopen : calls.openSetInformation pid = true
  · simp only [if_pos hopen]
    split <;> split <;> rfl
  · simp only [if_neg hopen]

theorem boostProcess_settings :
    (boostProcess m calls pid pin settings).2 = changeAt (afterBoost m calls pin) settings pid := by
  unfold boostProcess changeAt afterBoost
  by_cases hopen : calls.openSetInformation pid = true
  · rw [if_pos hopen, if_pos hopen]
    cases hprio : calls.setPriorityClass pid <;> cases hpin : pin <;>
      cases haff : calls.setProcessAffinityMask pid <;> simp
  · rw [if_neg hopen, if_neg hopen, Function.update_eq_self]

theorem boostEntries_settings {processName : String} {entries : List ProcessEntry} {count : ℕ} :
    (boostEntries m calls processName pin entries count settings).2 = changeAll (afterBoost m calls pin)
      ((entries.filter fun pe => lowercase (narrow pe.szExeFile) = lowercase processName).map
        ProcessEntry.th32ProcessID) settings := by
  induction entries generalizing count settings with
  | nil => rfl
  | cons pe rest ih =>
    unfold boostEntries
    by_cases hname : lowercase (narrow pe.szExeFile) = lowercase processName
    · rw [if_pos hname, ih, boostProcess_settings, List.filter_cons, decide_eq_true hname]
      rfl
    · rw [if_neg hname, ih, List.filter_cons, decide_eq_false hname]
      rfl

theorem boostGames_settings {games : List RunningProcessInfo} {count : ℕ} :
    (boostGames m calls games count settings).2 =
      changeAll (afterBoost m calls true) (games.map RunningProcessInfo.pid) settings := by
  induction games generalizing count settings with
  | nil => rfl
  | cons g rest ih =>
    unfold boostGames
    rw [ih, boostProcess_settings]
    rfl

theorem activeGames_pids {queries : ProcessCalls} {entries : List ProcessEntry} :
    (activeGames queries entries).map RunningProcessInfo.pid =
      (entries.filter Boost.automatic.wants).map ProcessEntry.th32ProcessID := by
  induction entries with
  | nil => rfl
  | cons pe rest ih =>
    have hcons : activeGames queries (pe :: rest) =
        if Boost.automatic.wants pe then runningProcess queries pe :: activeGames queries rest
        else activeGames queries rest := rfl
    rw [hcons]
    by_cases hgame : Boost.automatic.wants pe = true
    · rw [if_pos hgame, List.filter_cons_of_pos hgame, List.map_cons, List.map_cons, runningProcess_pid, ih]
    · rw [if_neg hgame, List.filter_cons_of_neg hgame, ih]

end Changes

section Runs
variable {m : MachineView} {moment : Moment} {settings : ProcessSettings} {pid : BitVec 32}

theorem byName_settings {processName : String} {pin : Bool} :
    ((Boost.byName processName pin).apply m moment settings).2 =
      changeAll (afterBoost m moment.calls pin) ((Boost.byName processName pin).targets moment) settings := by
  have happly : (Boost.byName processName pin).apply m moment settings =
      boostProcessByName m moment.calls moment.snapshot processName pin settings := rfl
  rw [happly]
  unfold boostProcessByName
  by_cases hguard : isProcessProtected processName = true
  · have hnone : (Boost.byName processName pin).targets moment = [] := by
      simp [Boost.targets, Boost.wants, hguard]
    rw [if_pos hguard, hnone]
    rfl
  · have hwants : (Boost.byName processName pin).wants =
        fun pe => decide (lowercase (narrow pe.szExeFile) = lowercase processName) := by
      funext pe
      simp [Boost.wants, hguard]
    rw [if_neg hguard, Boost.targets, Moment.entries, hwants]
    cases moment.snapshot with
    | none => rfl
    | some entries =>
      rw [Option.getD_some, ← boostEntries_settings]
      dsimp only
      split <;> rfl

theorem automatic_settings : (Boost.automatic.apply m moment settings).2 =
    changeAll (afterBoost m moment.calls true) (Boost.automatic.targets moment) settings := by
  have htargets : Boost.automatic.targets moment =
      (findActiveGames moment.queries moment.snapshot).map RunningProcessInfo.pid := by
    unfold Boost.targets Moment.entries findActiveGames
    cases moment.snapshot with
    | none => rfl
    | some entries => exact activeGames_pids.symm
  have happly : Boost.automatic.apply m moment settings =
      autoBoostAllActiveGames m moment.calls moment.queries moment.snapshot settings := rfl
  rw [happly, htargets, autoBoostAllActiveGames]
  by_cases hgames : findActiveGames moment.queries moment.snapshot = []
  · rw [if_pos hgames, hgames]
    rfl
  · rw [if_neg hgames, ← boostGames_settings]

/-- Both ways of boosting. -/
theorem apply_settings (b : Boost) : (b.apply m moment settings).2 =
    changeAll (afterBoost m moment.calls b.pins) (b.targets moment) settings := by
  cases b with
  | byName processName pin => exact byName_settings
  | automatic => exact automatic_settings

theorem apply_settings_at (b : Boost) : (b.apply m moment settings).2 pid =
    { priorityClass := if b.raises moment pid then highPriorityClass else (settings pid).priorityClass
      affinityMask :=
        if b.repins moment pid then getPhysicalCoresAffinityMask m else (settings pid).affinityMask } := by
  rw [apply_settings]
  unfold Boost.raises Boost.repins
  by_cases htarget : pid ∈ b.targets moment
  · rw [changeAll_of_mem afterBoost_afterBoost htarget, afterBoost, List.contains_iff_mem.mpr htarget]
    cases moment.calls.openSetInformation pid <;> rfl
  · have hout : (b.targets moment).contains pid = false := by simpa using htarget
    rw [changeAll_of_notMem htarget, hout]
    rfl

end Runs

/-! What boosts never do. -/

theorem knownGames_unprotected : ∀ kg ∈ knownGameExecutables, isProcessProtected kg = false := by
  decide

theorem isProcessProtected_congr {s t : String} (h : lowercase s = lowercase t) :
    isProcessProtected s = isProcessProtected t := by
  rw [← isProcessProtected_lowercase s, h, isProcessProtected_lowercase]

theorem Boost.unprotected_of_wants {b : Boost} {pe : ProcessEntry} (h : b.wants pe = true) :
    isProcessProtected (narrow pe.szExeFile) = false := by
  cases b with
  | byName processName pin =>
    rw [Boost.wants, Bool.and_eq_true, Bool.not_eq_true', decide_eq_true_iff] at h
    rw [isProcessProtected_congr h.2, h.1]
  | automatic =>
    obtain ⟨kg, hkg, hname⟩ := List.mem_map.mp (isKnownGame_iff.mp h)
    rw [← isProcessProtected_congr hname, knownGames_unprotected kg hkg]

/-- Every snapshot shows the process under names of the VPN guard only. -/
def Shielded (boosts : List (Boost × Moment)) (pid : BitVec 32) : Prop :=
  ∀ b ∈ boosts, ∀ pe ∈ b.2.entries, pe.th32ProcessID = pid → isProcessProtected (narrow pe.szExeFile) = true

theorem Shielded.notMem_targets {boosts : List (Boost × Moment)} {pid : BitVec 32} (h : Shielded boosts pid)
    {b : Boost × Moment} (hb : b ∈ boosts) : pid ∉ b.1.targets b.2 := by
  intro htarget
  obtain ⟨pe, hpe, hpid⟩ := List.mem_map.mp htarget
  obtain ⟨hmem, hwants⟩ := List.mem_filter.mp hpe
  have hfree := Boost.unprotected_of_wants hwants
  rw [h b hb pe hmem hpid] at hfree
  exact Bool.noConfusion hfree

theorem runBoosts_at {m : MachineView} {boosts : List (Boost × Moment)} {settings : ProcessSettings}
    {pid : BitVec 32} : runBoosts m boosts settings pid =
      { priorityClass :=
          if boosts.any fun b => b.1.raises b.2 pid then highPriorityClass else (settings pid).priorityClass
        affinityMask :=
          if boosts.any fun b => b.1.repins b.2 pid then getPhysicalCoresAffinityMask m
          else (settings pid).affinityMask } := by
  induction boosts generalizing settings with
  | nil => rfl
  | cons b boosts ih =>
    have hcons : runBoosts m (b :: boosts) settings = runBoosts m boosts (b.1.apply m b.2 settings).2 := rfl
    rw [hcons, ih, apply_settings_at, List.any_cons, List.any_cons, Bool.or_comm,
      Bool.or_comm (b.1.repins b.2 pid)]
    simp only [Bool.or_eq_true, ite_or]

/-- After any boosts a process has the high priority when one of them raised it and the games' mask when one
pinned it, and is as before otherwise; the processes of the VPN guard are as before. -/
theorem runBoosts_settings (m : MachineView) (boosts : List (Boost × Moment)) (settings : ProcessSettings)
    (pid : BitVec 32) :
    runBoosts m boosts settings pid =
        { priorityClass :=
            if boosts.any fun b => b.1.raises b.2 pid then highPriorityClass else (settings pid).priorityClass
          affinityMask :=
            if boosts.any fun b => b.1.repins b.2 pid then getPhysicalCoresAffinityMask m
            else (settings pid).affinityMask } ∧
      (Shielded boosts pid → runBoosts m boosts settings pid = settings pid) := by
  refine ⟨runBoosts_at, fun hshield => ?_⟩
  have hraises : (boosts.any fun b => b.1.raises b.2 pid) = false := by
    rw [List.any_eq_false]
    intro b hb
    simp [Boost.raises, hshield.notMem_targets hb]
  have hrepins : (boosts.any fun b => b.1.repins b.2 pid) = false := by
    rw [List.any_eq_false]
    intro b hb
    simp [Boost.repins, hshield.notMem_targets hb]
  rw [runBoosts_at, hraises, hrepins]
  rfl

end Disping.Shield
