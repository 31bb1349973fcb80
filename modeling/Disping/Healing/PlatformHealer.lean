import Disping.Shield.VpnGuard

/-! # PlatformHealer: the stored pid and the Steam processes

RepairActiveProcessRegistry may reset the pid in the registry; TerminateHungSteamZombies, a later
step of the same call, reads it again and spares no process once it finds zero there.
-/
namespace Disping.Healing

open Tweaks Shield Host

/-- A process of the snapshot with its creation time, in units of 100 ns. -/
structure ProcessEntry where
  th32ProcessID : BitVec 32
  szExeFile : WideString
  created : BitVec 64

structure ProcessTable where
  entries : List ProcessEntry
  unique : (entries.map ProcessEntry.th32ProcessID).Nodup

/-- What the calls of RepairActiveProcessRegistry return. -/
structure RepairOutcome where
  pidRead : Bool
  opened : Bool
  exitCode : Option (BitVec 32)
  imageName : Option String
  stored : Bool

/-- What the calls on one process return in TerminateHungSteamZombies. -/
structure ProcessQuery where
  opened : Bool
  timesRead : Bool
  openedToTerminate : Bool
  terminated : Bool

/-- What the calls of TerminateHungSteamZombies return. -/
structure KillerOutcome where
  pidRead : Bool
  /-- The snapshot and its first entry are there. -/
  snapshot : Bool
  nowFt : BitVec 64
  query : BitVec 32 → ProcessQuery

def stillActive : BitVec 32 := 259

def RepairOutcome.shouldReset (o : RepairOutcome) : Bool :=
  if o.opened then
    if o.exitCode.any (· ≠ stillActive) then true
    else
      match o.imageName with
      | some exePath => !contains (lowercase exePath) "steam.exe"
      | none => true
  else true

/-- The result and the pid value afterwards. -/
def repairActiveProcessRegistry (o : RepairOutcome) (pid : Option (BitVec 32)) :
    Bool × Option (BitVec 32) :=
  match if o.pidRead then pid else none with
  | none => (false, pid)
  | some activePid =>
    if activePid = 0 then (false, pid)
    else if o.shouldReset then (true, if o.stored then some 0 else pid)
    else (false, pid)

def isSteamName (name : String) : Prop := name = "steam.exe" ∨ name = "steamwebhelper.exe"

instance (name : String) : Decidable (isSteamName name) := inferInstanceAs (Decidable (_ ∨ _))

/-- The tests that put a process on the list. -/
def toKill (o : KillerOutcome) (activePid : BitVec 32) (pe : ProcessEntry) : Bool :=
  if isSteamName (lowercase (narrow pe.szExeFile)) then
    if activePid ≠ 0 ∧ pe.th32ProcessID = activePid then false
    else
      let q := o.query pe.th32ProcessID
      if q.opened && q.timesRead then
        if pe.created < o.nowFt then
          decide (600000000 < o.nowFt - pe.created ∧ activePid = 0)
        else false
      else false
  else false

/-- The count it returns, and the processes that end. -/
def terminateHungSteamZombies (o : KillerOutcome) (table : ProcessTable)
    (pid : Option (BitVec 32)) : ℕ × List (BitVec 32) :=
  let activePid := if o.pidRead then pid.getD 0 else 0
  if o.snapshot then
    let pidsToKill := (table.entries.filter (toKill o activePid)).map ProcessEntry.th32ProcessID
    let opened := pidsToKill.filter fun p => (o.query p).openedToTerminate
    (opened.length, opened.filter fun p => (o.query p).terminated)
  else (0, [])

/-- What the other steps of the healing return; they touch neither the pid nor a process. -/
structure OtherRepairs where
  crashCleared : Bool
  loginRepaired : Bool
  vdfRepaired : Bool
  cacheCleaned : Bool

structure Healed where
  result : OperationResult
  pid : Option (BitVec 32)
  terminated : List (BitVec 32)

def healSteamAndGames (terminateZombies : Bool) (other : OtherRepairs) (repair : RepairOutcome)
    (killer : KillerOutcome) (table : ProcessTable) (pid : Option (BitVec 32)) : Healed :=
  let (regRepaired, pid) := repairActiveProcessRegistry repair pid
  let (zombiesKilled, terminated) :=
    if terminateZombies then terminateHungSteamZombies killer table pid else (0, [])
  let details :=
    (if other.crashCleared then "Removed stale Steam .crash lock file.\n" else "") ++
    (if regRepaired then "Reset stale ActiveProcess PID in registry.\n" else "") ++
    (if other.loginRepaired then "Restored Steam AutoLogin & RememberPassword flags.\n" else "") ++
    (if other.vdfRepaired then "Verified and healed loginusers.vdf credentials.\n" else "") ++
    (if other.cacheCleaned then "Purged corrupted CEF crash state and shader cache.\n" else "") ++
    (if zombiesKilled > 0 then
      "Terminated " ++ toString zombiesKilled ++ " orphaned Steam zombie process(es).\n" else "")
  { result :=
      if details = "" then
        { success := true
          message := "Steam & Game Launchers verified: All platform locks healthy and clean." }
      else
        { success := true
          message := "Steam & Game Launchers auto-healed and unlocked!"
          details := details }
    pid := pid
    terminated := terminated }

/-- The name as Windows holds it, unlike the low bytes that the killer compares. -/
def wideText (ws : WideString) : String := String.ofList (ws.map fun u => Char.ofNat u.toNat)

def ProcessEntry.IsNamed (pe : ProcessEntry) (name : String) : Prop :=
  lowercase (wideText pe.szExeFile) = name

instance (pe : ProcessEntry) (name : String) : Decidable (pe.IsNamed name) :=
  inferInstanceAs (Decidable (_ = _))

/-- The process is more than 60 seconds old. -/
def ProcessEntry.IsOld (pe : ProcessEntry) (nowFt : BitVec 64) : Prop :=
  pe.created.toNat + 600000000 < nowFt.toNat

/-- The process that the pid value names is a running steam.exe; zero names none. -/
def ProcessEntry.IsActive (pe : ProcessEntry) (pid : Option (BitVec 32)) : Prop :=
  pid = some pe.th32ProcessID ∧ pe.th32ProcessID ≠ 0 ∧ pe.IsNamed "steam.exe"

/-- Only old Steam processes end, and not the active one. -/
structure Spares (table : ProcessTable) (nowFt : BitVec 64) (pid : Option (BitVec 32))
    (terminated : List (BitVec 32)) : Prop where
  others : ∀ p ∈ terminated, ∃ pe ∈ table.entries, pe.th32ProcessID = p ∧
    (pe.IsNamed "steam.exe" ∨ pe.IsNamed "steamwebhelper.exe") ∧ pe.IsOld nowFt
  active : ∀ pe ∈ table.entries, pe.IsActive pid → pe.th32ProcessID ∉ terminated

/-- The queries find the process of the pid running from an image of Steam. -/
def RepairOutcome.FindsSteam (o : RepairOutcome) : Prop :=
  o.opened = true ∧ (∀ code, o.exitCode = some code → code = stillActive) ∧
    ∃ path, o.imageName = some path ∧ contains (lowercase path) "steam.exe" = true

/-- The killer takes the pid for zero: it reads none, or zero, or one that the repair has reset. -/
def ReadsZero (repair : RepairOutcome) (killer : KillerOutcome) (pid : Option (BitVec 32)) : Prop :=
  killer.pidRead = false ∨ pid = none ∨ pid = some 0 ∨
    repair.pidRead = true ∧ ¬ repair.FindsSteam ∧ repair.stored = true

/-- Every call on the process succeeds and it is old enough. -/
def Exposed (killer : KillerOutcome) (pe : ProcessEntry) : Prop :=
  killer.snapshot = true ∧ killer.query pe.th32ProcessID = ⟨true, true, true, true⟩ ∧
    pe.IsOld killer.nowFt

variable {repair : RepairOutcome} {killer : KillerOutcome} {table : ProcessTable}
  {pid : Option (BitVec 32)} {activePid : BitVec 32} {pe pe' : ProcessEntry}

theorem shouldReset_iff : repair.shouldReset = true ↔ ¬ repair.FindsSteam := by
  unfold RepairOutcome.shouldReset RepairOutcome.FindsSteam
  cases repair.opened with
  | false => simp
  | true =>
    cases hcode : repair.exitCode with
    | none => cases himage : repair.imageName <;> simp
    | some code =>
      by_cases hactive : code = stillActive
      · cases himage : repair.imageName <;> simp [hactive]
      · simp [hactive]

/-- The pid that the killer works with. -/
theorem readPid_eq_zero_iff :
    (if killer.pidRead then (repairActiveProcessRegistry repair pid).2.getD 0 else 0) = 0 ↔
      ReadsZero repair killer pid := by
  unfold ReadsZero repairActiveProcessRegistry
  rw [← shouldReset_iff]
  cases killer.pidRead with
  | false => simp
  | true =>
    cases hpid : pid with
    | none => cases repair.pidRead <;> simp
    | some activePid =>
      by_cases hzero : activePid = 0#32
      · cases repair.pidRead <;> simp [hzero]
      · cases repair.pidRead <;> cases repair.shouldReset <;> cases repair.stored <;> simp [hzero]

theorem isOld_iff {nowFt : BitVec 64} :
    pe.IsOld nowFt ↔ pe.created < nowFt ∧ 600000000 < nowFt - pe.created := by
  unfold ProcessEntry.IsOld
  bv_omega

theorem toKill_iff : toKill killer activePid pe = true ↔
    isSteamName (lowercase (narrow pe.szExeFile)) ∧ activePid = 0 ∧
      (killer.query pe.th32ProcessID).opened = true ∧
      (killer.query pe.th32ProcessID).timesRead = true ∧ pe.IsOld killer.nowFt := by
  unfold toKill
  rw [isOld_iff]
  by_cases hname : isSteamName (lowercase (narrow pe.szExeFile))
  · by_cases hzero : activePid = 0#32
    · simp [hname, hzero, and_assoc]
    · simp [hname, hzero]
  · simp [hname]

theorem mem_terminated {other : OtherRepairs} {p : BitVec 32} :
    p ∈ (healSteamAndGames true other repair killer table pid).terminated ↔
      ReadsZero repair killer pid ∧ ∃ pe ∈ table.entries, pe.th32ProcessID = p ∧
        isSteamName (lowercase (narrow pe.szExeFile)) ∧ Exposed killer pe := by
  have hterminated : (healSteamAndGames true other repair killer table pid).terminated =
      (terminateHungSteamZombies killer table (repairActiveProcessRegistry repair pid).2).2 := rfl
  rw [hterminated, ← readPid_eq_zero_iff]
  unfold terminateHungSteamZombies Exposed
  cases hsnapshot : killer.snapshot with
  | false => simp
  | true =>
    simp only [if_true, List.mem_filter, List.mem_map, toKill_iff]
    constructor
    · rintro ⟨⟨⟨pe, ⟨hmem, hname, hzero, hopened, htimes, hold⟩, rfl⟩, hopen⟩, hend⟩
      refine ⟨hzero, pe, hmem, rfl, hname, trivial, ?_, hold⟩
      cases hq : killer.query pe.th32ProcessID
      simp_all
    · rintro ⟨hzero, pe, hmem, rfl, hname, -, hquery, hold⟩
      refine ⟨⟨⟨pe, ⟨hmem, hname, hzero, ?_, ?_, hold⟩, rfl⟩, ?_⟩, ?_⟩ <;> rw [hquery]

theorem ProcessTable.eq_of_pid (hpe : pe ∈ table.entries) (hpe' : pe' ∈ table.entries)
    (h : pe.th32ProcessID = pe'.th32ProcessID) : pe = pe' :=
  List.inj_on_of_nodup_map table.unique hpe hpe' h

/-- The call spares all but old Steam processes exactly when, where the killer takes the pid for
zero, no process it can end has a name that only its low bytes make a Steam name, or is the
active one. -/
theorem heal_spares_iff (other : OtherRepairs) (repair : RepairOutcome) (killer : KillerOutcome)
    (table : ProcessTable) (pid : Option (BitVec 32)) :
    Spares table killer.nowFt pid
        (healSteamAndGames true other repair killer table pid).terminated ↔
      (ReadsZero repair killer pid → ∀ pe ∈ table.entries, Exposed killer pe →
        isSteamName (lowercase (narrow pe.szExeFile)) →
          (pe.IsNamed "steam.exe" ∨ pe.IsNamed "steamwebhelper.exe") ∧ ¬ pe.IsActive pid) := by
  constructor
  · rintro ⟨hothers, hactive⟩ hzero pe hpe hexposed hname
    have hend : pe.th32ProcessID ∈
        (healSteamAndGames true other repair killer table pid).terminated :=
      mem_terminated.mpr ⟨hzero, pe, hpe, rfl, hname, hexposed⟩
    obtain ⟨pe', hpe', hpid, hnamed, -⟩ := hothers _ hend
    obtain rfl := table.eq_of_pid hpe' hpe hpid
    exact ⟨hnamed, fun h => hactive _ hpe' h hend⟩
  · intro h
    constructor
    · intro p hp
      obtain ⟨hzero, pe, hpe, rfl, hname, hexposed⟩ := mem_terminated.mp hp
      exact ⟨pe, hpe, rfl, (h hzero pe hpe hexposed hname).1, hexposed.2.2⟩
    · intro pe hpe hactive hend
      obtain ⟨hzero, pe', hpe', hpid, hname, hexposed⟩ := mem_terminated.mp hend
      obtain rfl := table.eq_of_pid hpe' hpe hpid
      exact (h hzero _ hpe' hexposed hname).2 hactive

/-- Steam with the pid 1234, running since long ago. -/
def runningSteam : ProcessTable where
  entries := [⟨1234, "steam.exe".toList.map fun c => BitVec.ofNat 16 c.toNat, 0⟩]
  unique := List.nodup_singleton _

/-- The image name of the running Steam cannot be read: its pid is reset and it is ended. -/
theorem not_spares_unreadable_image : ¬ Spares runningSteam 10000000000 (some 1234)
    (healSteamAndGames true ⟨false, true, false, false⟩ ⟨true, true, some stillActive, none, true⟩
      ⟨true, true, 10000000000, fun _ => ⟨true, true, true, true⟩⟩ runningSteam
      (some 1234)).terminated := by
  intro h
  refine h.active _ List.mem_cons_self ?_ ?_
  · refine ⟨rfl, by decide, ?_⟩
    decide
  · decide

end Disping.Healing
