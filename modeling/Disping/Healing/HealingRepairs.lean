import Disping.Healing.HealingFootprint
import Disping.Healing.RepeatedRepair
import Disping.Transition.Repairs
import Disping.Host.StringValues

/-! # The healing as a sequence of repairs

When the calls succeed, each step of the healing is a function of what the machine holds, and the
healing is these functions one after the other.
-/
namespace Disping.Healing.Steam

open Hive Host Text Transition

/-- What the queries of a pid find, for as long as the processes stay. -/
def Steady (sys : System) : Prop := ∀ n pid, sys.process n pid = sys.process 0 pid

namespace Held
variable (h : Held)

def steamPath : String :=
  match textOf (h.currentUser.find steamKey "SteamPath") with
  | some text => withBackslashes text
  | none => (textOf (h.localMachine.find machineSteamKey "InstallPath")).getD standardPath

def autoLoginUser : Option RegValue := h.currentUser.find steamKey "AutoLoginUser"

def autoUser : List Char := autoUserOf h.autoLoginUser

def pid : Option (BitVec 32) :=
  ((h.currentUser.find activeProcessKey "pid").filter fun v => v.data.length ≤ 4).bind dwordOf

/-- The pid value names a process that is no running Steam. -/
def stale (sys : System) : Bool := h.pid.any fun p => decide (p ≠ 0) && (sys.process 0 p).shouldReset

def setContent (name : String) (x : Option (List Char)) : Held :=
  { h with contents := Function.update h.contents name x }

/-- Without some of the browser's folders. -/
def withoutCaches (localAppData : String) (folders : List String) : Held :=
  let gone := fun name => folders.any fun folder => under (joined (htmlCache localAppData) folder) name
  { h with
    contents := fun name => if gone name then none else h.contents name
    folders := fun name => h.folders name && !gone name }

variable (name localAppData : String) (x : Option (List Char)) (gone : List String)

@[simp] theorem setContent_localMachine : (h.setContent name x).localMachine = h.localMachine := rfl

@[simp] theorem setContent_currentUser : (h.setContent name x).currentUser = h.currentUser := rfl

@[simp] theorem withoutCaches_localMachine :
    (h.withoutCaches localAppData gone).localMachine = h.localMachine := rfl

@[simp] theorem withoutCaches_currentUser :
    (h.withoutCaches localAppData gone).currentUser = h.currentUser := rfl

end Held

/-- The lock of a crash. -/
def unlock : Repair Held where
  act h := if h.steamPath = "" then h else h.setContent (crashFile h.steamPath) none
  goal h := h.steamPath ≠ "" → h.contents (crashFile h.steamPath) = none

def resetPid (sys : System) : Repair Held where
  act h := if h.stale sys then
      { h with currentUser := h.currentUser.apply ⟨activeProcessKey, "pid", regDword 0⟩ }
    else h
  goal h := h.stale sys = false

def remember : Repair Held where
  act h := { h with currentUser := h.currentUser.applyAll loginWrites }
  goal h := ∀ w ∈ loginWrites, h.currentUser.values w.location = some w.value

/-- The file as it is after RepairLoginUsersVdf. -/
def mended (autoLoginUser : Option RegValue) (content : List Char) : List Char :=
  (Healing.repairLoginUsersVdf ⟨true, true⟩ autoLoginUser content).content

def mendUsers : Repair Held where
  act h :=
    if h.steamPath = "" then h
    else match h.contents (vdfFile h.steamPath) with
      | none => h
      | some content => h.setContent (vdfFile h.steamPath) (some (mended h.autoLoginUser content))
  goal h := h.steamPath ≠ "" → ∀ content, h.contents (vdfFile h.steamPath) = some content →
    mended h.autoLoginUser content = content

/-- What cleaning the browser's state makes of the machine. -/
def Held.cleaned (h : Held) (localAppData : String) : Held :=
  if h.folders (htmlCache localAppData) || (h.contents (htmlCache localAppData)).isSome then
    -- where the file is not there, nothing is read of it either
    match (h.contents (localStateFile localAppData)).map inspect with
    | some (.dirty new) =>
      (h.setContent (localStateFile localAppData) (some new)).withoutCaches localAppData cacheFolders
    | _ => h
  else h

def cleanCache (sys : System) : Repair Held where
  act h := match sys.localAppData with
    | none => h
    | some localAppData => h.cleaned localAppData
  goal h := ∀ localAppData, sys.localAppData = some localAppData → h.cleaned localAppData = h

/-- The healing where every call succeeds. -/
def healingRepairs (sys : System) : List (Repair Held) :=
  [unlock, resetPid sys, remember, mendUsers, cleanCache sys]

/-! What the repairs leave alone. -/

theorem loginWrites_beside : ∀ w ∈ loginWrites, w.location ≠ (path activeProcessKey, fold "pid") := by
  decide

theorem loginWrites_nodup : (loginWrites.map Registry.Write.location).Nodup := by decide

theorem loginWrites_subset : loginWrites ⊆ repairs := List.subset_cons_self _ _

section Reading
variable {h : Held} {ws : List Registry.Write} (hws : ws ⊆ repairs)
include hws

theorem steamPath_applyAll :
    Held.steamPath { h with currentUser := h.currentUser.applyAll ws } = h.steamPath := by
  have hfind : (h.currentUser.applyAll ws).find steamKey "SteamPath" =
      h.currentUser.find steamKey "SteamPath" :=
    h.currentUser.values_applyAll_of_ne fun w hw => (repairs_beside w (hws hw)).1
  simp only [Held.steamPath, hfind]

theorem autoLoginUser_applyAll :
    Held.autoLoginUser { h with currentUser := h.currentUser.applyAll ws } = h.autoLoginUser :=
  h.currentUser.values_applyAll_of_ne fun w hw => (repairs_beside w (hws hw)).2

end Reading

/-- What the files are looked for and mended by. -/
structure SameReader (h h' : Held) : Prop where
  steamPath : h'.steamPath = h.steamPath
  autoLoginUser : h'.autoLoginUser = h.autoLoginUser

theorem SameReader.autoUser {h h' : Held} (hreader : SameReader h h') : h'.autoUser = h.autoUser := by
  rw [Held.autoUser, hreader.autoLoginUser, Held.autoUser]

theorem SameReader.trans {h h' h'' : Held} (first : SameReader h h') (second : SameReader h' h'') :
    SameReader h h'' :=
  ⟨second.steamPath.trans first.steamPath, second.autoLoginUser.trans first.autoLoginUser⟩

theorem SameReader.of_registries {h h' : Held} (hmachine : h'.localMachine = h.localMachine)
    (huser : h'.currentUser = h.currentUser) : SameReader h h' := by
  constructor
  · simp only [Held.steamPath, hmachine, huser]
  · simp only [Held.autoLoginUser, huser]

theorem sameReader_unlock (h : Held) : SameReader h (unlock.act h) := by
  dsimp only [unlock]
  split <;> exact SameReader.of_registries rfl rfl

theorem sameReader_applyAll (h : Held) {ws : List Registry.Write} (hws : ws ⊆ repairs) :
    SameReader h { h with currentUser := h.currentUser.applyAll ws } :=
  ⟨steamPath_applyAll hws, autoLoginUser_applyAll hws⟩

theorem sameReader_resetPid (sys : System) (h : Held) : SameReader h ((resetPid sys).act h) := by
  have hpid : [⟨activeProcessKey, "pid", regDword 0⟩] ⊆ repairs :=
    List.cons_subset_cons _ (List.nil_subset _)
  dsimp only [resetPid]
  split
  · rw [← Registry.applyAll_singleton]
    exact sameReader_applyAll h hpid
  · exact SameReader.of_registries rfl rfl

theorem sameReader_remember (h : Held) : SameReader h (remember.act h) :=
  sameReader_applyAll h loginWrites_subset

/-! The healing does these repairs. -/

variable {α β : Type} {sys : System}

/-- From a machine that holds the one the action leads, with this result, to one that holds the other. -/
def Runs (sys : System) (f : Heal α) (h : Held) (a : α) (h' : Held) : Prop :=
  ∀ m, m.held = h → (f sys m).1 = some a ∧ (f sys m).2.held = h'

/-- The same with some result. -/
def Ends (sys : System) (f : Heal α) (h h' : Held) : Prop := ∃ a, Runs sys f h a h'

variable {h h' h'' : Held}

theorem Runs.pure (a : α) (h : Held) : Runs sys (pure a) h a h := fun _ hm => ⟨rfl, hm⟩

theorem Runs.bind {f : Heal α} {g : α → Heal β} {a : α} {b : β} (hf : Runs sys f h a h')
    (hg : Runs sys (g a) h' b h'') : Runs sys (f >>= g) h b h'' := by
  intro m hm
  obtain ⟨hresult, hheld⟩ := hf m hm
  cases hrun : f sys m with
  | mk a' m' =>
    rw [hrun] at hresult hheld
    dsimp only at hresult hheld
    subst hresult
    rw [bind_returned hrun]
    exact hg m' hheld

theorem Runs.ends {f : Heal α} {a : α} (hf : Runs sys f h a h') : Ends sys f h h' := ⟨a, hf⟩

theorem Runs.bind_ends {f : Heal α} {g : α → Heal β} {a : α} (hf : Runs sys f h a h')
    (hg : Ends sys (g a) h' h'') : Ends sys (f >>= g) h h'' := by
  obtain ⟨b, hb⟩ := hg
  exact ⟨b, hf.bind hb⟩

theorem Ends.bind {f : Heal α} {g : α → Heal β} (hf : Ends sys f h h') (hg : ∀ a, Ends sys (g a) h' h'') :
    Ends sys (f >>= g) h h'' := by
  obtain ⟨a, ha⟩ := hf
  exact ha.bind_ends (hg a)

theorem Ends.pure (a : α) (h : Held) : Ends sys (Pure.pure a) h h := (Runs.pure a h).ends

theorem Runs.view {f : System → Machine → α} {a : α} (hf : ∀ m, m.held = h → f sys m = a) :
    Runs sys (view f) h a h := by
  intro m hm
  exact ⟨congrArg some (hf m hm), hm⟩

/-- What is seen and does not matter. -/
theorem Runs.view_bind {f : System → Machine → α} {g : α → Heal β} {b : β}
    (hg : ∀ a, Runs sys (g a) h b h') : Runs sys (Steam.view f >>= g) h b h' :=
  fun m hm => hg (f sys m) m hm

theorem Runs.change {f : System → Machine → Machine} (hf : ∀ m, m.held = h → (f sys m).held = h') :
    Runs sys (change f) h () h' := fun m hm => ⟨rfl, hf m hm⟩

section Calls
variable (ok : sys.toEnvironment.AllSucceed)
include ok

theorem runs_call (h : Held) : Runs sys (onMachine call) h true h := by
  rintro m rfl
  unfold onMachine
  rw [call_run ok]
  exact ⟨rfl, rfl⟩

theorem runs_userString (key name : String) (h : Held) :
    Runs sys (onUser (getString key name)) h (textOf (h.currentUser.find key name)) h := by
  rintro m rfl
  have hread := (queryValue_run ok key name 1024 { m.world with registry := m.currentUser }).2
  refine ⟨congrArg some (getString_run ok key name { m.world with registry := m.currentUser }), ?_⟩
  have hregistry := congrArg World.registry hread
  exact congrArg (fun r => (⟨m.world.registry, r, m.contents, m.folders⟩ : Held)) hregistry

theorem runs_machineString (key name : String) (h : Held) :
    Runs sys (onMachine (getString key name)) h (textOf (h.localMachine.find key name)) h := by
  rintro m rfl
  have hread := (queryValue_run ok key name 1024 m.world).2
  refine ⟨congrArg some (getString_run ok key name m.world), ?_⟩
  have hregistry := congrArg World.registry hread
  exact congrArg (fun r => (⟨r, m.currentUser, m.contents, m.folders⟩ : Held)) hregistry

theorem runs_pid (h : Held) : Runs sys (onUser (getDword activeProcessKey "pid")) h h.pid h := by
  rintro m rfl
  obtain ⟨hvalue, hread⟩ :=
    getDword_run ok activeProcessKey "pid" { m.world with registry := m.currentUser }
  refine ⟨congrArg some hvalue, ?_⟩
  have hregistry := congrArg World.registry hread
  exact congrArg (fun r => (⟨m.world.registry, r, m.contents, m.folders⟩ : Held)) hregistry

theorem runs_setDword (key name : String) (v : BitVec 32) (h : Held) :
    Runs sys (onUser (setDword key name v)) h true
      { h with currentUser := h.currentUser.apply ⟨key, name, regDword v⟩ } := by
  rintro m rfl
  unfold onUser setDword
  rw [storeValue_run ok]
  exact ⟨rfl, rfl⟩

theorem runs_getSteamPath (h : Held) : Runs sys getSteamPath h h.steamPath h := by
  unfold Held.steamPath
  refine (runs_userString ok steamKey "SteamPath" h).bind ?_
  cases textOf (h.currentUser.find steamKey "SteamPath") with
  | some text => exact Runs.pure _ h
  | none =>
    refine (runs_machineString ok machineSteamKey "InstallPath" h).bind ?_
    cases textOf (h.localMachine.find machineSteamKey "InstallPath") <;> exact Runs.pure _ h

theorem runs_steamPathOr (h : Held) : Runs sys (steamPathOr h.steamPath) h h.steamPath h := by
  unfold steamPathOr
  split
  · exact runs_getSteamPath ok h
  · exact Runs.pure _ h

theorem ends_clearCrashLocks (h : Held) : Ends sys (clearCrashLocks h.steamPath) h (unlock.act h) := by
  refine (runs_steamPathOr ok h).bind_ends ?_
  dsimp only [unlock]
  split
  · exact Ends.pure _ h
  · refine (runs_call ok h).bind_ends ?_
    have hattr : ∀ m : Machine, m.held = h → (true && m.there (crashFile h.steamPath)) =
        (h.folders (crashFile h.steamPath) || (h.contents (crashFile h.steamPath)).isSome) := by
      rintro m rfl
      rfl
    refine (Runs.view hattr).bind_ends ?_
    cases hthere : (h.folders (crashFile h.steamPath) || (h.contents (crashFile h.steamPath)).isSome) with
    | true =>
      refine (runs_call ok h).bind_ends ((Runs.change ?_).bind_ends (Ends.pure _ _))
      rintro m rfl
      rfl
    | false =>
      rw [Bool.or_eq_false_iff] at hthere
      have hnone : h.contents (crashFile h.steamPath) = none := by simpa using hthere.2
      have hsame : h.setContent (crashFile h.steamPath) none = h := by
        unfold Held.setContent
        rw [← hnone, Function.update_eq_self]
      rw [hsame]
      exact Ends.pure _ h

theorem ends_repairActiveProcessRegistry (steady : Steady sys) (h : Held) :
    Ends sys repairActiveProcessRegistry h ((resetPid sys).act h) := by
  have hkeep : h.stale sys = false → (resetPid sys).act h = h := fun hfalse => if_neg (by simp [hfalse])
  refine (runs_pid ok h).bind_ends ?_
  cases hpid : h.pid with
  | none =>
    rw [hkeep (by rw [Held.stale, hpid, Option.any_none])]
    exact Ends.pure _ h
  | some activePid =>
    have hstale : h.stale sys = (decide (activePid ≠ 0) && (sys.process 0 activePid).shouldReset) := by
      rw [Held.stale, hpid, Option.any_some]
    dsimp only
    split
    · rename_i hzero
      rw [hkeep (by simp [hstale, hzero])]
      exact Ends.pure _ h
    · rename_i hpos
      refine (Runs.view fun m _ => steady m.world.calls activePid).bind_ends ?_
      split
      · rename_i hreset
        have hact : (resetPid sys).act h =
            { h with currentUser := h.currentUser.apply ⟨activeProcessKey, "pid", regDword 0⟩ } :=
          if_pos (by rw [hstale, hreset, decide_eq_true hpos, Bool.and_true])
        rw [hact]
        exact (runs_setDword ok activeProcessKey "pid" 0 h).bind_ends (Ends.pure _ _)
      · rename_i hkept
        rw [hkeep (by simp [hstale, hkept])]
        exact Ends.pure _ h

theorem ends_repairSteamLoginSettings (h : Held) :
    Ends sys repairSteamLoginSettings h (remember.act h) := by
  have hstep : ∀ (r : Registry) (name : String) (v : BitVec 32),
      Runs sys (onUser (setDword steamKey name v)) { h with currentUser := r } true
        { h with currentUser := r.apply ⟨steamKey, name, regDword v⟩ } :=
    fun r name v => runs_setDword ok steamKey name v { h with currentUser := r }
  simp only [remember, loginWrites, Registry.applyAll, List.foldl_cons, List.foldl_nil]
  refine (hstep h.currentUser "RememberPassword" 1).bind_ends ?_
  refine (hstep _ "AlreadyRetriedOfflineMode" 0).bind_ends ?_
  refine (hstep _ "StartupModeTmp" 0).bind_ends ?_
  exact (hstep _ "StartupModeTmpIsValid" 0).bind_ends (Ends.pure _ _)

theorem runs_writeContent (name : String) (new : List Char) (h : Held) :
    Runs sys (writeContent name new) h true (h.setContent name (some new)) := by
  refine (runs_call ok h).bind (Runs.view_bind fun number => (runs_call ok h).bind ?_)
  refine (Runs.change ?_).bind (Runs.pure _ _)
  rintro m rfl
  rfl

theorem ends_repairLoginUsersVdf {h : Held} (huser : ∀ c ∈ h.autoUser, wordChar c = true) :
    Ends sys (repairLoginUsersVdf h.steamPath) h (mendUsers.act h) := by
  refine (runs_steamPathOr ok h).bind_ends ?_
  dsimp only [mendUsers]
  split
  · exact Ends.pure _ h
  · refine (runs_call ok h).bind_ends ?_
    have hread : ∀ m : Machine, m.held = h →
        (if true = true then m.contents (vdfFile h.steamPath) else none) =
          h.contents (vdfFile h.steamPath) := by
      rintro m rfl
      rfl
    refine (Runs.view hread).bind_ends ?_
    cases hcontent : h.contents (vdfFile h.steamPath) with
    | none => exact Ends.pure _ h
    | some content =>
      dsimp only
      split
      · rename_i hempty
        have hsame : h.setContent (vdfFile h.steamPath) (some (mended h.autoLoginUser content)) = h := by
          have hmended : some (mended h.autoLoginUser content) = h.contents (vdfFile h.steamPath) := by
            rw [hcontent, hempty]
            rfl
          unfold Held.setContent
          rw [hmended, Function.update_eq_self]
        rw [hsame]
        exact Ends.pure _ h
      · rename_i hsome
        obtain ⟨new, hnew⟩ := exists_repairedContent huser content
        have hmended : mended h.autoLoginUser content = new := content_open hsome hnew
        refine (runs_userString ok steamKey "AutoLoginUser" h).bind_ends ?_
        rw [hmended]
        unfold autoUserOf Held.autoLoginUser at hnew
        rw [hnew]
        exact (runs_writeContent ok _ new h).ends

theorem runs_fsExists (name : String) (h : Held) :
    Runs sys (fsExists name) h (h.folders name || (h.contents name).isSome) h := by
  refine (runs_call ok h).bind (Runs.view ?_)
  rintro m rfl
  rfl

theorem runs_removeCaches (localAppData : String) (folders : List String) (h : Held) :
    Runs sys (removeCaches localAppData folders) h () (h.withoutCaches localAppData folders) := by
  induction folders generalizing h with
  | nil =>
    have hsame : h.withoutCaches localAppData [] = h := by simp [Held.withoutCaches]
    rw [hsame]
    exact Runs.pure () h
  | cons folder folders ih =>
    have hremove : Runs sys (removeAll (joined (htmlCache localAppData) folder)) h ()
        (h.withoutCaches localAppData [folder]) := by
      refine Runs.view_bind fun number => (runs_call ok h).bind (Runs.change ?_)
      rintro m rfl
      simp [Machine.held, Held.withoutCaches]
    have hboth : (h.withoutCaches localAppData [folder]).withoutCaches localAppData folders =
        h.withoutCaches localAppData (folder :: folders) := by
      simp only [Held.withoutCaches, List.any_cons, List.any_nil, Bool.or_false, Held.mk.injEq, true_and]
      refine ⟨funext fun name => ?_, funext fun name => ?_⟩
      · by_cases hunder : under (joined (htmlCache localAppData) folder) name = true <;> simp [hunder]
      · rw [Bool.not_or, Bool.and_assoc]
    rw [← hboth]
    exact hremove.bind (ih _)

theorem ends_cleanCorruptedHtmlCache (h : Held) :
    Ends sys cleanCorruptedHtmlCache h ((cleanCache sys).act h) := by
  refine Runs.bind_ends (Runs.view fun _ _ => rfl) ?_
  dsimp only [cleanCache]
  cases sys.localAppData with
  | none => exact Ends.pure _ h
  | some localAppData =>
    dsimp only
    refine (runs_fsExists ok _ h).bind_ends ?_
    unfold Held.cleaned
    split
    · refine (runs_fsExists ok _ h).bind_ends ?_
      have hread : ∀ m : Machine, m.held = h →
          (if true = true then m.contents (localStateFile localAppData) else none) =
            h.contents (localStateFile localAppData) := by
        rintro m rfl
        rfl
      cases hcontent : h.contents (localStateFile localAppData) with
      | none =>
        split
        · refine (runs_call ok h).bind_ends ((Runs.view hread).bind_ends ?_)
          rw [hcontent]
          exact Ends.pure _ h
        · exact Ends.pure _ h
      | some content =>
        rw [if_pos (by simp)]
        refine (runs_call ok h).bind_ends ((Runs.view hread).bind_ends ?_)
        rw [hcontent, Option.map_some]
        cases inspect content with
        | thrown => exact Ends.pure _ h
        | clean => exact Ends.pure _ h
        | dirty new =>
          refine (runs_writeContent ok _ new h).bind_ends ?_
          exact (runs_removeCaches ok localAppData cacheFolders _).bind_ends (Ends.pure _ _)
    · exact Ends.pure _ h

/-- With all calls succeeding the healing is the sequence of the repairs. -/
theorem ends_healSteamAndGames (steady : Steady sys) {h : Held}
    (huser : ∀ c ∈ h.autoUser, wordChar c = true) :
    Ends sys healSteamAndGames h (repairAll (healingRepairs sys) h) := by
  have hreader := ((sameReader_unlock h).trans (sameReader_resetPid sys _)).trans (sameReader_remember _)
  have hvdf := ends_repairLoginUsersVdf ok fun c hc => huser c (hreader.autoUser ▸ hc)
  rw [hreader.steamPath] at hvdf
  refine (runs_getSteamPath ok h).bind_ends ?_
  refine (ends_clearCrashLocks ok h).bind fun crashCleared => ?_
  refine (ends_repairActiveProcessRegistry ok steady _).bind fun regRepaired => ?_
  refine (ends_repairSteamLoginSettings ok _).bind fun loginRepaired => ?_
  refine hvdf.bind fun vdfRepaired => ?_
  exact (ends_cleanCorruptedHtmlCache ok _).bind fun cacheCleaned => Ends.pure _ _

end Calls

end Disping.Healing.Steam
