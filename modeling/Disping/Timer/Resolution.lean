import Mathlib.Data.Rat.Floor

/-! # Timer-resolution requests and the object that makes them

Windows counts timeBeginPeriod requests by period and keeps one NtSetTimerResolution request for
each process. The object remembers that it made a request, and neither which one nor how many.
-/
namespace Disping.Timer

/-- The timer requests of a process as the system holds them. -/
structure Ledger where
  /-- The periods of the timeBeginPeriod requests still outstanding. -/
  periods : List (BitVec 32) := []
  /-- The resolution that NtSetTimerResolution holds for the process. -/
  ntRequest : Option (BitVec 32) := none
  /-- The periods timeEndPeriod was called for while none was outstanding, in order. -/
  unmatched : List (BitVec 32) := []

namespace Ledger
variable (l : Ledger)

def beginPeriod (period : BitVec 32) (accepted : Bool) : Ledger :=
  if accepted then { l with periods := l.periods ++ [period] } else l

def endPeriod (period : BitVec 32) (accepted : Bool) : Ledger :=
  if period ∈ l.periods then
    if accepted then { l with periods := l.periods.erase period } else l
  else { l with unmatched := l.unmatched ++ [period] }

/-- NtSetTimerResolution with TRUE; STATUS_SUCCESS is 0. -/
def ntSet (desired status : BitVec 32) : Ledger :=
  if status = 0 then { l with ntRequest := some desired } else l

/-- NtSetTimerResolution with FALSE. -/
def ntRelease (status : BitVec 32) : Ledger :=
  if status = 0 then { l with ntRequest := none } else l

/-- No request is in force. -/
def Idle : Prop := l.periods = [] ∧ l.ntRequest = none

end Ledger

/-- The members that the timer calls use. -/
structure SystemLatencyOptimizer where
  activeResolutionMs : ℚ := 15625 / 1000
  timerSet : Bool := false
  actualResolutionUnits : BitVec 32 := 0
  /-- m_pfnNtSetTimerResolution was found in ntdll.dll. -/
  ntAvailable : Bool

/-- What the calls of one SetHighResolutionTimer return. -/
structure SetOutcome where
  ntStatus : BitVec 32
  actualUnits : BitVec 32
  /-- timeBeginPeriod returned TIMERR_NOERROR. -/
  began : Bool

/-- NtSetTimerResolution is there and returns STATUS_SUCCESS. -/
def SetOutcome.granted (o : SetOutcome) (available : Bool) : Bool := available && o.ntStatus == 0

/-- timeBeginPeriod is reached, as NtSetTimerResolution did not grant the request, and accepts. -/
def SetOutcome.fallsBack (o : SetOutcome) (available : Bool) : Bool :=
  !o.granted available && o.began

/-- What the calls of one RestoreTimerResolution return. -/
structure RestoreOutcome where
  ntStatus : BitVec 32
  ended : Bool

/-- A double as an unsigned 32-bit number, the way the x64 conversion cuts it. -/
def truncated (x : ℚ) : BitVec 32 := BitVec.ofInt 32 ⌊x⌋

def desiredUnits (targetMs : ℚ) : BitVec 32 :=
  let units := truncated (targetMs * 10000)
  if units < 5000 then 5000 else units

def fallbackPeriod (targetMs : ℚ) : BitVec 32 := truncated (if targetMs < 1 then 1 else targetMs)

/-- An object together with the system's record. -/
structure Timed where
  optimizer : SystemLatencyOptimizer
  ledger : Ledger

/-- The result is the success flag; the texts show a formatted double and are left out. -/
def setHighResolutionTimer (targetMs : ℚ) (o : SetOutcome) (t : Timed) : Bool × Timed :=
  let desired := desiredUnits targetMs
  let ledger := if t.optimizer.ntAvailable then t.ledger.ntSet desired o.ntStatus else t.ledger
  if o.granted t.optimizer.ntAvailable then
    (true,
      { optimizer :=
          { t.optimizer with
            timerSet := true
            actualResolutionUnits := o.actualUnits
            activeResolutionMs := o.actualUnits.toNat / 10000 }
        ledger := ledger })
  else
    let period := fallbackPeriod targetMs
    let ledger := ledger.beginPeriod period o.began
    if o.began then
      (true,
        { optimizer :=
            { t.optimizer with
              timerSet := true
              activeResolutionMs := period.toNat }
          ledger := ledger })
    else (false, { t with ledger := ledger })

def restoreTimerResolution (o : RestoreOutcome) (t : Timed) : Timed :=
  if t.optimizer.timerSet then
    let ledger := if t.optimizer.ntAvailable then t.ledger.ntRelease o.ntStatus else t.ledger
    { optimizer := { t.optimizer with timerSet := false }
      ledger := ledger.endPeriod 1 o.ended }
  else t

/-- What one SetHighResolutionTimer does to the flag and to the record. -/
structure SetEffect (targetMs : ℚ) (o : SetOutcome) (t t' : Timed) : Prop where
  ntAvailable : t'.optimizer.ntAvailable = t.optimizer.ntAvailable
  timerSet : t'.optimizer.timerSet =
    (t.optimizer.timerSet || (o.granted t.optimizer.ntAvailable || o.began))
  periods : t'.ledger.periods = t.ledger.periods ++
    if o.fallsBack t.optimizer.ntAvailable then [fallbackPeriod targetMs] else []
  unmatched : t'.ledger.unmatched = t.ledger.unmatched
  ntRequest : t'.ledger.ntRequest =
    if o.granted t.optimizer.ntAvailable then some (desiredUnits targetMs) else t.ledger.ntRequest

theorem ntSet_of_granted (l : Ledger) (desired : BitVec 32) {o : SetOutcome} {available : Bool} :
    (if available then l.ntSet desired o.ntStatus else l) =
      if o.granted available then { l with ntRequest := some desired } else l := by
  unfold Ledger.ntSet SetOutcome.granted
  cases available with
  | false => rfl
  | true =>
    rw [Bool.true_and]
    by_cases h : o.ntStatus = 0
    · rw [if_pos rfl, if_pos h, if_pos (beq_iff_eq.mpr h)]
    · rw [if_pos rfl, if_neg h, if_neg (mt beq_iff_eq.mp h)]

theorem setHighResolutionTimer_effect (targetMs : ℚ) (o : SetOutcome) (t : Timed) :
    SetEffect targetMs o t (setHighResolutionTimer targetMs o t).2 := by
  simp only [setHighResolutionTimer, ntSet_of_granted]
  cases hg : o.granted t.optimizer.ntAvailable with
  | true => constructor <;> simp [hg, SetOutcome.fallsBack]
  | false =>
    cases hb : o.began with
    | true => constructor <;> simp [hg, hb, SetOutcome.fallsBack, Ledger.beginPeriod]
    | false => constructor <;> simp [hg, hb, SetOutcome.fallsBack, Ledger.beginPeriod]

/-- timeEndPeriod leaves a clean record only when its period is the one outstanding. -/
theorem Ledger.endPeriod_clean (l : Ledger) (period : BitVec 32) (accepted : Bool)
    (h : l.unmatched = []) :
    (l.endPeriod period accepted).unmatched = [] ∧ (l.endPeriod period accepted).periods = [] ↔
      l.periods = [period] ∧ accepted = true := by
  unfold Ledger.endPeriod
  by_cases hmem : period ∈ l.periods
  · cases accepted with
    | false =>
      have hne : l.periods ≠ [] := List.ne_nil_of_mem hmem
      simp [hmem, hne]
    | true =>
      have herase : l.periods.erase period = [] ↔ l.periods = [period] := by
        constructor
        · intro he
          have hperm := List.perm_cons_erase hmem
          rw [he] at hperm
          exact List.perm_singleton.mp hperm
        · intro he
          simp [he]
      simp [hmem, h, herase]
  · have hne : l.periods ≠ [period] := fun he => hmem (by simp [he])
    simp [hmem, hne]

end Disping.Timer
