import Mathlib.Data.Int.Order.Basic
import Mathlib.Data.List.Basic
import Disping.Transition.Runs

/-! # A stop request against the monitors of a benchmark

BenchmarkMultipleTargets runs one monitor for each target on the same PingMonitor, and every monitor
clears the stop request when it starts. A request is heeded where no monitor starts after it.
-/
namespace Disping.Telemetry.StopRequest
open Transition

/-- Where a task stands in RunContinuousMonitor. -/
inductive Place
  /-- before `m_stopRequested.store(false)` -/
  | clearing
  /-- at the condition of the loop -/
  | testing
  /-- at PingSingle -/
  | probing
  /-- at the condition of the pause -/
  | testingPause
  | pausing
  | done
deriving DecidableEq

structure MonitorTask where
  place : Place := .clearing
  i : ℕ := 0
  /-- the probes sent since Stop was executed -/
  late : ℕ := 0
deriving DecidableEq

structure PingMonitor where
  stopRequested : Bool
  /-- the targets whose tasks are not launched yet -/
  remaining : ℕ
  tasks : List MonitorTask
  /-- Stop was executed after the benchmark began. -/
  stopped : Bool
deriving DecidableEq

/-- A step of a task. -/
inductive TaskStep
  | clear
  | test
  /-- A probe, which sends nothing where no handle or no address is had. -/
  | probe (sends : Bool)
  | testPause
  | wake
deriving DecidableEq

inductive Action
  /-- The next task is launched. -/
  | launch
  | stop
  | task (k : ℕ) (s : TaskStep)
deriving DecidableEq

/-- A benchmark of so many targets begins; the request of an earlier use may still be there. -/
def PingMonitor.initial (targets : ℕ) (stopRequested : Bool) : PingMonitor :=
  ⟨stopRequested, targets, [], false⟩

def taskStep (count : ℤ) (m : PingMonitor) (t : MonitorTask) : TaskStep → Option MonitorTask
  | .clear => if t.place = .clearing then some { t with place := .testing, i := 0 } else none
  | .test =>
    if t.place = .testing then
      some { t with place := if t.i < count ∧ m.stopRequested = false then .probing else .done }
    else none
  | .probe sends =>
    if t.place = .probing then
      some { t with
        place := .testingPause
        late := if sends ∧ m.stopped then t.late + 1 else t.late }
    else none
  | .testPause =>
    if t.place = .testingPause then
      if t.i + 1 < count ∧ m.stopRequested = false then some { t with place := .pausing }
      else some { t with place := .testing, i := t.i + 1 }
    else none
  | .wake => if t.place = .pausing then some { t with place := .testing, i := t.i + 1 } else none

def step (count : ℤ) (m : PingMonitor) : Action → Option PingMonitor
  | .launch =>
    if 0 < m.remaining then
      some { m with remaining := m.remaining - 1, tasks := m.tasks ++ [{}] }
    else none
  | .stop => some { m with stopRequested := true, stopped := true }
  | .task k s => do
    let t ← m.tasks[k]?
    let t' ← taskStep count m t s
    some { m with
      stopRequested := if s = .clear then false else m.stopRequested
      tasks := m.tasks.set k t' }

/-- No task clears the request after Stop. -/
def ClearsBeforeStop (m : PingMonitor) (a : Action) : Prop :=
  ∀ k, a = .task k .clear → m.stopped = false

/-- What a task may have done. -/
structure MonitorTask.Heeds (stopped : Bool) (t : MonitorTask) : Prop where
  atMostOne : t.late ≤ 1
  /-- A probe sent after Stop is the last one. -/
  last : t.late = 1 → t.place ≠ .probing
  unsent : stopped = false → t.late = 0

structure Heeded (m : PingMonitor) : Prop where
  requested : m.stopped = true → m.stopRequested = true
  tasks : ∀ t ∈ m.tasks, t.Heeds m.stopped

variable {count : ℤ} {m m' : PingMonitor} {t t' : MonitorTask}

theorem heeds_taskStep {s : TaskStep} (hm : m.stopped = true → m.stopRequested = true)
    (ht : t.Heeds m.stopped) (h : taskStep count m t s = some t') : t'.Heeds m.stopped := by
  obtain ⟨hone, hlast, hunsent⟩ := ht
  cases s with
  | clear =>
    simp only [taskStep, Option.ite_none_right_eq_some, Option.some.injEq] at h
    obtain ⟨-, rfl⟩ := h
    exact ⟨hone, fun _ => Place.noConfusion, hunsent⟩
  | test =>
    simp only [taskStep, Option.ite_none_right_eq_some, Option.some.injEq] at h
    obtain ⟨-, rfl⟩ := h
    refine ⟨hone, fun hlate => ?_, hunsent⟩
    -- a probe was sent late, so the request stands
    have hstopped : m.stopped = true := by
      rw [← Bool.not_eq_false]
      intro hno
      have hzero := hunsent hno
      exact absurd (hzero.symm.trans hlate) (by decide)
    simp [hm hstopped]
  | probe sends =>
    simp only [taskStep, Option.ite_none_right_eq_some, Option.some.injEq] at h
    obtain ⟨hplace, rfl⟩ := h
    have hzero : t.late = 0 := by
      have hnone : t.late ≠ 1 := fun hlate => hlast hlate hplace
      omega
    refine ⟨?_, fun _ => Place.noConfusion, fun hno => ?_⟩
    · simp only [hzero]
      split <;> omega
    · simp [hno, hzero]
  | testPause =>
    simp only [taskStep, Option.ite_none_right_eq_some] at h
    obtain ⟨-, h⟩ := h
    split at h
    · cases h
      exact ⟨hone, fun _ => Place.noConfusion, hunsent⟩
    · cases h
      exact ⟨hone, fun _ => Place.noConfusion, hunsent⟩
  | wake =>
    simp only [taskStep, Option.ite_none_right_eq_some, Option.some.injEq] at h
    obtain ⟨-, rfl⟩ := h
    exact ⟨hone, fun _ => Place.noConfusion, hunsent⟩

theorem heeded_step {a : Action} (hm : Heeded m) (ha : ClearsBeforeStop m a)
    (h : step count m a = some m') : Heeded m' := by
  obtain ⟨hrequested, htasks⟩ := hm
  cases a with
  | launch =>
    simp only [step, Option.ite_none_right_eq_some, Option.some.injEq] at h
    obtain ⟨-, rfl⟩ := h
    refine ⟨hrequested, fun t ht => ?_⟩
    rcases List.mem_append.mp ht with ht | ht
    · exact htasks t ht
    · rw [List.mem_singleton.mp ht]
      exact ⟨Nat.zero_le 1, nofun, fun _ => rfl⟩
  | stop =>
    cases h
    refine ⟨fun _ => rfl, fun t ht => ?_⟩
    obtain ⟨hone, hlast, -⟩ := htasks t ht
    exact ⟨hone, hlast, nofun⟩
  | task k s =>
    obtain ⟨t, ht, h⟩ := Option.bind_eq_some_iff.mp h
    obtain ⟨t', ht', h⟩ := Option.bind_eq_some_iff.mp h
    cases h
    constructor
    · intro hstopped
      have hs : s ≠ .clear := by
        rintro rfl
        rw [ha k rfl] at hstopped
        cases hstopped
      simp only [hs, if_false]
      exact hrequested hstopped
    · intro u hu
      rcases List.mem_or_eq_of_mem_set hu with hu | rfl
      · exact htasks u hu
      · have hheeds : u.Heeds m.stopped :=
          heeds_taskStep hrequested (htasks t (List.mem_of_getElem? ht)) ht'
        exact hheeds

/-- A monitor that starts after Stop clears the request and goes on: where two probes are asked for,
it may send both. -/
theorem stop_lost {k : ℕ} (ht : m.tasks[k]? = some t) (hplace : t.place = .clearing)
    (hstopped : m.stopped = true) (hcount : 2 ≤ count) :
    ∃ as m' t', run (step count) m as = some m' ∧ m'.tasks[k]? = some t' ∧
      t'.late = t.late + 2 := by
  let as : List Action :=
    [.task k .clear, .task k .test, .task k (.probe true), .task k .testPause, .task k .wake,
      .task k .test, .task k (.probe true)]
  obtain ⟨hk, hown⟩ := List.getElem?_eq_some_iff.mp ht
  have hzero : (0 : ℤ) < count := by omega
  have hone : (1 : ℤ) < count := by omega
  let after : MonitorTask := ⟨.testingPause, 1, t.late + 2⟩
  refine ⟨as, { m with stopRequested := false, tasks := m.tasks.set k after }, after, ?_, ?_, rfl⟩
  · simp [as, after, run, step, taskStep, hown, hplace, hstopped, hk, hzero, hone]
  · simp [hk]

/-- In a run where no monitor starts after Stop, every task sends at most one probe after it. -/
theorem stop_heeded (count : ℤ) (targets : ℕ) (stopRequested : Bool) {as : List Action}
    (h : run (step count) (PingMonitor.initial targets stopRequested) as = some m)
    (hclears : Along (step count) ClearsBeforeStop (.initial targets stopRequested) as) :
    ∀ t ∈ m.tasks, t.late ≤ 1 := by
  have hinitial : Heeded (.initial targets stopRequested) := ⟨nofun, nofun⟩
  have hheeded := run_invariant (fun _ _ _ => heeded_step) hclears hinitial h
  exact fun t ht => (hheeded.tasks t ht).atMostOne

/-- Stop between two rounds of one monitor. -/
def stopWhileRunning : List Action :=
  [.launch, .task 0 .clear, .task 0 .test, .task 0 (.probe true), .task 0 .testPause, .stop,
    .task 0 .wake, .task 0 .test]

theorem stop_heeded_whileRunning : ∃ m,
    run (step 5) (.initial 1 false) stopWhileRunning = some m ∧ ∀ t ∈ m.tasks, t.late ≤ 1 := by
  obtain ⟨m, hm⟩ : ∃ m, run (step 5) (.initial 1 false) stopWhileRunning = some m := ⟨_, rfl⟩
  refine ⟨m, hm, stop_heeded 5 1 false hm ?_⟩
  simp [stopWhileRunning, Along, ClearsBeforeStop, step, taskStep, PingMonitor.initial]

/-- Stop before the only monitor has started. -/
theorem not_stop_heeded_beforeStart :
    ¬ ∀ (count : ℤ) (targets : ℕ) (stopRequested : Bool) (as : List Action) (m : PingMonitor),
      run (step count) (.initial targets stopRequested) as = some m → ∀ t ∈ m.tasks, t.late ≤ 1 := by
  intro h
  have htwo := h 2 1 false
    [.launch, .stop, .task 0 .clear, .task 0 .test, .task 0 (.probe true), .task 0 .testPause,
      .task 0 .wake, .task 0 .test, .task 0 (.probe true)] _ rfl
  exact absurd htwo (by decide)

end Disping.Telemetry.StopRequest
