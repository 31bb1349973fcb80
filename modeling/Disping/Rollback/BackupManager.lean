import Disping.Tweaks.NetworkOptimizer
import Disping.Tweaks.AdapterOptimizer
import Disping.Tweaks.SystemLatencyOptimizer
import Disping.Tweaks.QoSOptimizer

/-! # BackupManager and the extreme boost -/
namespace Disping.Rollback

open Hive Host Tweaks

def backupPath : String := "disping_backup.json"

def scriptPath : String := "disping_rollback.bat"

/-- Opens a file for writing, which empties it, and writes the lines. -/
def writeFile (name : String) (lines : TextFile) : Win Bool := do
  if ← call then
    modify fun w => { w with files := Function.update w.files name (some lines) }
    pure true
  else pure false

/-- The text of the two rollback values, with the key's backslashes as they are. -/
def snapshot (stamp : String) (throttle resp : BitVec 32) : TextFile :=
  ["\x7b",
   "  \"timestamp\": \"" ++ stamp ++ "\",",
   "  \"entries\": [",
   "    \x7b\"key\": \"" ++ profileKey ++ "\", \"name\": \"NetworkThrottlingIndex\", \"value\": "
     ++ toString throttle.toNat ++ "\x7d,",
   "    \x7b\"key\": \"" ++ profileKey ++ "\", \"name\": \"SystemResponsiveness\", \"value\": "
     ++ toString resp.toNat ++ "\x7d",
   "  ]",
   "\x7d"]

def rollbackScript : TextFile :=
  ["@echo off",
   ":: =====================================================",
   ":: DisPing Automatic Rollback & Restore Script",
   ":: Restores standard Windows network and system defaults",
   ":: =====================================================",
   "",
   "net session >nul 2>&1",
   "if %errorlevel% neq 0 (",
   "    echo [!] Administrator privileges required. Please right-click and Run as Administrator.",
   "    pause",
   "    exit /b 1",
   ")",
   "",
   "echo [*] Restoring Windows Network Throttling Index to 10...",
   "reg add \"HKLM\\SOFTWARE\\Microsoft\\Windows NT\\CurrentVersion\\Multimedia\\SystemProfile\" /v NetworkThrottlingIndex /t REG_DWORD /d 10 /f >nul",
   "echo [*] Restoring Windows System Responsiveness to 20...",
   "reg add \"HKLM\\SOFTWARE\\Microsoft\\Windows NT\\CurrentVersion\\Multimedia\\SystemProfile\" /v SystemResponsiveness /t REG_DWORD /d 20 /f >nul",
   "",
   "echo [*] Restoring Netsh TCP defaults...",
   "netsh int tcp set global autotuninglevel=normal >nul",
   "netsh int tcp set global congestionprovider=default >nul",
   "netsh int tcp set global ecncapability=default >nul",
   "netsh int tcp set global timestamps=allowed >nul",
   "netsh int tcp set global rss=enabled >nul",
   "netsh int tcp set global rsc=enabled >nul",
   "netsh int tcp set heuristics enabled >nul",
   "",
   "echo [*] Flushing DNS cache...",
   "ipconfig /flushdns >nul",
   "",
   "echo [OK] All settings successfully restored to Windows defaults!",
   "pause"]

def generateRollbackScript (script : String) : Win OperationResult := do
  let written ← writeFile script rollbackScript
  if written then
    pure { success := true, message := "Generated standalone rollback script: " ++ script }
  else
    pure { success := false, message := "Failed to write rollback script: " ++ script }

def createBackup (backup : String) : Win OperationResult := do
  -- the stream is opened first, so a failed open reads nothing and leaves no file
  if ← call then
    modify fun w => { w with files := Function.update w.files backup (some []) }
    let throttle ← getDword profileKey "NetworkThrottlingIndex"
    let resp ← getDword profileKey "SystemResponsiveness"
    let text ← ask fun env => snapshot env.buildStamp (throttle.getD 10) (resp.getD 20)
    modify fun w => { w with files := Function.update w.files backup (some text) }
    let _ ← generateRollbackScript scriptPath
    pure { success := true
           message := "Created system backup in [" ++ backup ++ "] and [disping_rollback.bat]." }
  else pure { success := false, message := "Failed to create backup file: " ++ backup }

def profileDefaults : List Setting :=
  [⟨"NetworkThrottlingIndex", .dword 10⟩,
   ⟨"SystemResponsiveness", .dword 20⟩]

def interfaceValues : List String := ["TcpAckFrequency", "TCPNoDelay", "TcpDelAckTicks"]

def netshDefaults : List String :=
  ["netsh int tcp set global autotuninglevel=normal > nul 2>&1",
   "netsh int tcp set global congestionprovider=default > nul 2>&1",
   "netsh int tcp set global ecncapability=default > nul 2>&1",
   "netsh int tcp set global timestamps=allowed > nul 2>&1",
   "netsh int tcp set global rss=enabled > nul 2>&1",
   "netsh int tcp set global rsc=enabled > nul 2>&1",
   "netsh int tcp set heuristics enabled > nul 2>&1"]

/-- The part of a timer object the restore looks at. -/
structure TimerOptimizer where
  timerSet : Bool := false

def TimerOptimizer.restoreTimerResolution (t : TimerOptimizer) : TimerOptimizer × OperationResult :=
  if t.timerSet then
    ({ t with timerSet := false },
      { success := true, message := "Restored default OS timer resolution." })
  else (t, { success := true, message := "Timer resolution was not overridden." })

def restoreFactoryDefaults : Win OperationResult :=
  asAdmin "Administrator privileges required to restore defaults." do
    let _ ← applySettings profileKey profileDefaults
    let guids ← enumerateSubKeys interfacesKey
    let _ ← forEach (fun guid => forEach (deleteValue (interfaceKey guid)) interfaceValues) guids
    let _ ← removeGamingQoSPolicies
    let _ ← forEach system netshDefaults
    -- the timer object is made here, so there is no override of its own to take back
    let _ ← pure (TimerOptimizer.restoreTimerResolution {})
    pure { success := true
           message := "Factory Windows defaults restored for TCP/IP, Throttling, MMCSS, and QoS." }

/-- The tweaks of the boost, in the order of its steps. -/
def boostTweaks (isHighRam : Bool) : Win Unit := do
  let _ ← applyAllNetworkTweaks
  let _ ← optimizeAllNetworkAdapters
  let _ ← disableLocationServices
  let _ ← optimizeMMCSSGamesProfile
  let _ ← optimizeMemorySubsystem isHighRam
  let _ ← setupGamingQoSPolicies []
  pure ()

/-- The steps of the boost that store registry values or write the backup; the timer, the memory
cleaner and the process boost are left out, and the healing of Steam, which has its own model in Healing. -/
def executeExtremeBoost (isHighRam : Bool) : Win Unit := do
  let _ ← createBackup backupPath
  boostTweaks isHighRam

end Disping.Rollback
