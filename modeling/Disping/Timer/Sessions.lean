import Disping.Rollback.Leftovers
import Disping.Timer.Resolution

/-! # Menu sessions and the factory restore

The menu's timer actions go through the object of main, the factory restore through one it makes
itself. The requests are held for the process, so only the first object knows of them.
-/
namespace Disping.Timer

open Host

/-- The process: the timer object of main, the system's record and the machine. -/
structure Process where
  timed : Timed
  world : World

/-- A main-menu action that sets the timer, with what its timer calls return. -/
inductive MenuAction
  /-- Action 3. -/
  | highResolutionTimer (o : SetOutcome)
  | extremeBoost (isHighRam : Bool) (o : SetOutcome)

def MenuAction.outcome : MenuAction → SetOutcome
  | highResolutionTimer o => o
  | extremeBoost _ o => o

/-- What the action does to the machine besides the timer. -/
def MenuAction.tweak : MenuAction → Win Unit
  | highResolutionTimer _ => do
    let _ ← Tweaks.optimizeMMCSSGamesProfile
    pure ()
  | extremeBoost isHighRam _ => Rollback.executeExtremeBoost isHighRam

def MenuAction.perform (env : Environment) (p : Process) (a : MenuAction) : Process :=
  { timed := (setHighResolutionTimer (1 / 2) a.outcome p.timed).2
    world := (a.tweak env p.world).2 }

def Process.initial (available : Bool) (w : World) : Process :=
  ⟨⟨{ ntAvailable := available }, {}⟩, w⟩

def runActions (env : Environment) (p : Process) (actions : List MenuAction) : Process :=
  actions.foldl (MenuAction.perform env) p

/-- Step 5: the timer object is a new one, and it restores once more when it is destroyed. -/
def restoreTimer (available : Bool) (o destroyed : RestoreOutcome) (l : Ledger) : Ledger :=
  let timerOpt : Timed := ⟨{ ntAvailable := available }, l⟩
  (restoreTimerResolution destroyed (restoreTimerResolution o timerOpt)).ledger

def restoreFactoryDefaults (env : Environment) (o destroyed : RestoreOutcome) (p : Process) :
    OperationResult × Process :=
  let restored := Rollback.restoreFactoryDefaults env p.world
  -- without the privileges the restore returns before step 5
  let ledger :=
    if env.admin then restoreTimer p.timed.optimizer.ntAvailable o destroyed p.timed.ledger
    else p.timed.ledger
  (restored.1, { timed := { p.timed with ledger := ledger }, world := restored.2 })

/-- SetHighResolutionTimer fails, by both of its ways. -/
def SetOutcome.Fails (o : SetOutcome) (available : Bool) : Prop :=
  o.granted available = false ∧ o.began = false

variable {env : Environment} {available : Bool} {o destroyed : RestoreOutcome} {l : Ledger}

/-- The new object has set no timer, so neither of its restores makes a call. -/
theorem restoreTimer_eq : restoreTimer available o destroyed l = l := rfl

theorem restoreFactoryDefaults_success (p : Process) :
    (restoreFactoryDefaults env o destroyed p).1.success = env.admin := by
  unfold restoreFactoryDefaults Rollback.restoreFactoryDefaults
  rw [Tweaks.asAdmin_run]
  cases env.admin with
  | true => rfl
  | false => rfl

theorem restoreFactoryDefaults_ledger (p : Process) :
    (restoreFactoryDefaults env o destroyed p).2.timed.ledger = p.timed.ledger := by
  unfold restoreFactoryDefaults
  rw [restoreTimer_eq, ite_self]

theorem idle_set_iff {t : Timed} {targetMs : ℚ} {s : SetOutcome} :
    (setHighResolutionTimer targetMs s t).2.ledger.Idle ↔
      t.ledger.Idle ∧ s.Fails t.optimizer.ntAvailable := by
  have h := setHighResolutionTimer_effect targetMs s t
  unfold Ledger.Idle SetOutcome.Fails
  rw [h.periods, h.ntRequest]
  cases hg : s.granted t.optimizer.ntAvailable <;> cases hb : s.began <;>
    simp [SetOutcome.fallsBack, hg, hb]

theorem idle_runActions_iff (p : Process) (actions : List MenuAction) :
    (runActions env p actions).timed.ledger.Idle ↔
      p.timed.ledger.Idle ∧
        ∀ a ∈ actions, a.outcome.Fails p.timed.optimizer.ntAvailable := by
  induction actions generalizing p with
  | nil => simp [runActions]
  | cons a actions ih =>
    have hnt := (setHighResolutionTimer_effect (1 / 2) a.outcome p.timed).ntAvailable
    have hstep : runActions env p (a :: actions) =
        runActions env (a.perform env p) actions := rfl
    rw [hstep, ih, MenuAction.perform, idle_set_iff, hnt, List.forall_mem_cons, and_assoc]

/-- A factory restore ends a session without requests only when the session made none. -/
theorem restored_session_idle_iff (env : Environment) (available : Bool) (w : World)
    (actions : List MenuAction) (o destroyed : RestoreOutcome) :
    let p := runActions env (.initial available w) actions
    let restored := restoreFactoryDefaults env o destroyed p
    (restored.1.success = true → restored.2.timed.ledger.Idle) ↔
      env.admin = false ∨ ∀ a ∈ actions, a.outcome.Fails available := by
  intro p restored
  have hidle : p.timed.ledger.Idle ↔ ∀ a ∈ actions, a.outcome.Fails available := by
    refine (idle_runActions_iff _ actions).trans (and_iff_right ?_)
    exact ⟨rfl, rfl⟩
  rw [restoreFactoryDefaults_success, restoreFactoryDefaults_ledger, hidle]
  cases env.admin with
  | false => exact ⟨fun _ => .inl rfl, fun _ h => absurd h Bool.false_ne_true⟩
  | true => exact ⟨fun h => .inr (h rfl), fun h _ => h.resolve_left Bool.noConfusion⟩

theorem not_idle_of_requested (admin : env.admin = true) {p : Process}
    (h : ¬ p.timed.ledger.Idle) :
    ¬ ((restoreFactoryDefaults env o destroyed p).1.success = true →
      (restoreFactoryDefaults env o destroyed p).2.timed.ledger.Idle) := by
  rw [restoreFactoryDefaults_success, restoreFactoryDefaults_ledger]
  exact fun hidle => h (hidle admin)

/-- Action 3 where NtSetTimerResolution grants the request: it outlives the restore. -/
theorem not_idle_after_action_three :
    let p := runActions Rollback.adminEnvironment (.initial true (Rollback.worldWith .empty))
      [.highResolutionTimer ⟨0, 5000, true⟩]
    let restored := restoreFactoryDefaults Rollback.adminEnvironment ⟨0, true⟩ ⟨0, true⟩ p
    ¬ (restored.1.success = true → restored.2.timed.ledger.Idle) := by
  refine not_idle_of_requested rfl fun hidle => ?_
  obtain ⟨_, hfails⟩ := (idle_runActions_iff _ _).mp hidle
  have hgranted := (hfails _ List.mem_cons_self).1
  exact absurd hgranted (by decide)

end Disping.Timer
