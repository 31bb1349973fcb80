import Disping.Healing.FileWriting
import Disping.Healing.PlatformHealer
import Disping.Host.RegistryUtil

/-! # The healing as a whole

HealSteamAndGames works on the hive of the current user and on the files of Steam. Its steps are
actions that the environment may let fail; an exception that no step catches ends them all, and
leaves what has been done so far. A file that is opened is read to its end: a read that breaks off is
not among the failures.
-/
namespace Disping.Healing.Steam

open Hive Host Text

structure Machine where
  /-- with the hive under HKEY_LOCAL_MACHINE -/
  world : World
  /-- the hive under HKEY_CURRENT_USER -/
  currentUser : Registry
  contents : String → Option (List Char)
  folders : String → Bool

structure System extends Environment where
  /-- `LOCALAPPDATA` -/
  localAppData : Option String
  /-- the answers about the process of a pid, by the number of the next call -/
  process : ℕ → BitVec 32 → RepairOutcome
  /-- how many bytes a failing write leaves in the file -/
  reached : ℕ → ℕ
  /-- what a failing remove_all has taken away -/
  removed : ℕ → String → Bool

/-- An action of the healer, with no result where an exception leaves it. -/
def Heal (α : Type) := System → Machine → Option α × Machine

instance : Monad Heal where
  pure a := fun _ m => (some a, m)
  bind f g := fun sys m =>
    match f sys m with
    | (some a, m) => g a sys m
    | (none, m) => (none, m)

section Bind
variable {α β : Type} {f : Heal α} {g : α → Heal β} {sys : System} {m m' : Machine}

theorem bind_returned {a : α} (h : f sys m = (some a, m')) : (f >>= g) sys m = g a sys m' := by
  simp only [bind, h]

theorem bind_thrown (h : f sys m = (none, m')) : (f >>= g) sys m = (none, m') := by
  simp only [bind, h]

end Bind

variable {α : Type}

def throwing : Heal α := fun _ m => (none, m)

def view (f : System → Machine → α) : Heal α := fun sys m => (some (f sys m), m)

def change (f : System → Machine → Machine) : Heal Unit := fun sys m => (some (), f sys m)

/-- An action on the machine, under HKEY_LOCAL_MACHINE. -/
def onMachine (f : Win α) : Heal α := fun sys m =>
  let ended := f sys.toEnvironment m.world
  (some ended.1, { m with world := ended.2 })

/-- The same action under HKEY_CURRENT_USER. -/
def onUser (f : Win α) : Heal α := fun sys m =>
  let ended := f sys.toEnvironment { m.world with registry := m.currentUser }
  (some ended.1,
    { m with
      world := { ended.2 with registry := m.world.registry }
      currentUser := ended.2.registry })

def Machine.there (m : Machine) (name : String) : Bool := m.folders name || (m.contents name).isSome

def steamKey : String := "Software\\Valve\\Steam"

def machineSteamKey : String := "SOFTWARE\\WOW6432Node\\Valve\\Steam"

def activeProcessKey : String := "Software\\Valve\\Steam\\ActiveProcess"

def withBackslashes (path : String) : String := path.map fun c => if c = '/' then '\\' else c

def standardPath : String := "C:\\Program Files (x86)\\Steam"

def getSteamPath : Heal String := do
  match ← onUser (getString steamKey "SteamPath") with
  | some path => pure (withBackslashes path)
  | none =>
    match ← onMachine (getString machineSteamKey "InstallPath") with
    | some path => pure path
    | none => pure standardPath

/-- An empty path is asked for again. -/
def steamPathOr (customSteamPath : String) : Heal String :=
  if customSteamPath = "" then getSteamPath else pure customSteamPath

def crashFile (sPath : String) : String := sPath ++ "\\.crash"

def clearCrashLocks (customSteamPath : String) : Heal Bool := do
  let sPath ← steamPathOr customSteamPath
  if sPath = "" then pure false
  else
    let ok ← onMachine call
    let attr ← view fun _ m => ok && m.there (crashFile sPath)
    if attr then
      let deleted ← onMachine call
      if deleted then
        change fun _ m => { m with contents := Function.update m.contents (crashFile sPath) none }
      pure true
    else pure false

def repairActiveProcessRegistry : Heal Bool := do
  match ← onUser (getDword activeProcessKey "pid") with
  | none => pure false
  | some activePid =>
    if activePid = 0 then pure false
    else
      let outcome ← view fun sys m => sys.process m.world.calls activePid
      if outcome.shouldReset then
        let _ ← onUser (setDword activeProcessKey "pid" 0)
        pure true
      else pure false

def repairSteamLoginSettings : Heal Bool := do
  let b1 ← onUser (setDword steamKey "RememberPassword" 1)
  let b2 ← onUser (setDword steamKey "AlreadyRetriedOfflineMode" 0)
  let b3 ← onUser (setDword steamKey "StartupModeTmp" 0)
  let b4 ← onUser (setDword steamKey "StartupModeTmpIsValid" 0)
  pure (b1 && b2 && b3 && b4)

/-- The file opened anew and written; a write that fails goes unnoticed. -/
def writeContent (name : String) (new : List Char) : Heal Bool := do
  let opened ← onMachine call
  if opened then
    let number ← view fun _ m => m.world.calls
    let whole ← onMachine call
    change fun sys m => { m with
      contents := Function.update m.contents name
        (some (if whole then new else new.take (sys.reached number))) }
    pure true
  else pure false

def vdfFile (sPath : String) : String := sPath ++ "\\config\\loginusers.vdf"

def repairLoginUsersVdf (customSteamPath : String) : Heal Bool := do
  let sPath ← steamPathOr customSteamPath
  if sPath = "" then pure false
  else
    let opened ← onMachine call
    let content ← view fun _ m => if opened then m.contents (vdfFile sPath) else none
    match content with
    | none => pure false
    | some content =>
      if content = [] then pure false
      else
        let autoUser ← onUser (getString steamKey "AutoLoginUser")
        match repairedContent (autoUser.getD "").toList content with
        | none => throwing
        | some new => writeContent (vdfFile sPath) new

/-- `operator/` of fs::path. -/
def joined (path name : String) : String :=
  match path.toList.getLast? with
  | none => name
  | some c => if c = '\\' ∨ c = '/' ∨ c = ':' then path ++ name else path ++ "\\" ++ name

def htmlCache (localAppData : String) : String := joined (joined localAppData "Steam") "htmlcache"

def localStateFile (localAppData : String) : String := joined (htmlCache localAppData) "Local State"

def cacheFolders : List String := ["GPUCache", "GrShaderCache", "GraphiteDawnCache", "ShaderCache"]

/-- The name is the folder's or of something in it. -/
def under (folder name : String) : Bool :=
  decide (name = folder) || (folder.toList ++ ['\\']).isPrefixOf name.toList

def removeAll (folder : String) : Heal Unit := do
  let number ← view fun _ m => m.world.calls
  let ok ← onMachine call
  change fun sys m =>
    let gone := fun name => under folder name && (ok || sys.removed number name)
    { m with
      contents := fun name => if gone name then none else m.contents name
      folders := fun name => m.folders name && !gone name }

def removeCaches (localAppData : String) : List String → Heal Unit
  | [] => pure ()
  | folder :: folders => do
    removeAll (joined (htmlCache localAppData) folder)
    removeCaches localAppData folders

/-- `fs::exists`, which throws where the system does not answer. -/
def fsExists (name : String) : Heal Bool := do
  let ok ← onMachine call
  if ok then view fun _ m => m.there name
  else throwing

def cleanCorruptedHtmlCache : Heal Bool := do
  match ← view fun sys _ => sys.localAppData with
  | none => pure false
  | some localAppData =>
    let found ← fsExists (htmlCache localAppData)
    if found then
      let stateFound ← fsExists (localStateFile localAppData)
      if stateFound then
        let opened ← onMachine call
        let content ← view fun _ m => if opened then m.contents (localStateFile localAppData) else none
        match content.map inspect with
        | some (.dirty new) =>
          let cleaned ← writeContent (localStateFile localAppData) new
          removeCaches localAppData cacheFolders
          pure cleaned
        | _ => pure false
      else pure false
    else pure false

/-- The report of a healing that leaves the zombies alone. -/
def report (crashCleared regRepaired loginRepaired vdfRepaired cacheCleaned : Bool) : OperationResult :=
  let details :=
    (if crashCleared then "Removed stale Steam .crash lock file.\n" else "") ++
    (if regRepaired then "Reset stale ActiveProcess PID in registry.\n" else "") ++
    (if loginRepaired then "Restored Steam AutoLogin & RememberPassword flags.\n" else "") ++
    (if vdfRepaired then "Verified and healed loginusers.vdf credentials.\n" else "") ++
    (if cacheCleaned then "Purged corrupted CEF crash state and shader cache.\n" else "")
  if details = "" then
    { success := true
      message := "Steam & Game Launchers verified: All platform locks healthy and clean." }
  else
    { success := true
      message := "Steam & Game Launchers auto-healed and unlocked!"
      details := details }

/-- The report says the same as the one of the model of the processes. -/
theorem result_healSteamAndGames (other : OtherRepairs) (repair : RepairOutcome) (killer : KillerOutcome)
    (table : ProcessTable) (pid : Option (BitVec 32)) :
    (Healing.healSteamAndGames false other repair killer table pid).result =
      report other.crashCleared (Healing.repairActiveProcessRegistry repair pid).1 other.loginRepaired
        other.vdfRepaired other.cacheCleaned := by
  simp [Healing.healSteamAndGames, report]

/-- HealSteamAndGames as every caller of the program calls it. -/
def healSteamAndGames : Heal OperationResult := do
  let sPath ← getSteamPath
  let crashCleared ← clearCrashLocks sPath
  let regRepaired ← repairActiveProcessRegistry
  let loginRepaired ← repairSteamLoginSettings
  let vdfRepaired ← repairLoginUsersVdf sPath
  let cacheCleaned ← cleanCorruptedHtmlCache
  pure (report crashCleared regRepaired loginRepaired vdfRepaired cacheCleaned)

/-- The machine after a healing, however it ends. -/
def healed (sys : System) (m : Machine) : Machine := (healSteamAndGames sys m).2

/-- What the machine holds, without the number of the next call. -/
structure Held where
  localMachine : Registry
  currentUser : Registry
  contents : String → Option (List Char)
  folders : String → Bool

def Machine.held (m : Machine) : Held := ⟨m.world.registry, m.currentUser, m.contents, m.folders⟩

end Disping.Healing.Steam
