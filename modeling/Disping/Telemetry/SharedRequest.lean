import Disping.Telemetry.MultipleTargets

/-! # The benchmark, seen from its stop request

MultipleTargets follows what the monitors measure, StopRequest only where they stand and what they send
after Stop. Every run of the benchmark is a run of the second, and so are its results.
-/
namespace Disping.Telemetry.MultipleTargets
open Transition

/-- A step of a task, where every probe sends. -/
def TaskStep.place : TaskStep → StopRequest.TaskStep
  | clear => .clear
  | test => .test
  | probe _ => .probe true
  | testPause => .testPause
  | wake => .wake

/-- Fetching a result is hidden. -/
def Action.place : Action → Option StopRequest.Action
  | launch => some .launch
  | stop => some .stop
  | task k s => some (.task k s.place)
  | get => none

/-- The same request, and the tasks in the same places. -/
structure Placed (m : PingMonitor) (r : StopRequest.PingMonitor) : Prop where
  stopRequested : r.stopRequested = m.stopRequested
  remaining : r.remaining = m.remaining
  tasks : r.tasks.map (fun t => (t.place, t.i)) = m.tasks.map fun t => (t.place, t.i)

variable {sqrt : ℚ → ℚ} {count : BitVec 32} {targets : ℕ} {as : List Action} {m m' : PingMonitor}
  {r : StopRequest.PingMonitor} {t t' : MonitorTask} {u : StopRequest.MonitorTask}

theorem placed_taskStep {s : TaskStep} (hrequest : r.stopRequested = m.stopRequested)
    (hplace : (u.place, u.i) = (t.place, t.i)) (h : taskStep sqrt count m.stopRequested t s = some t') :
    ∃ u', StopRequest.taskStep count.toInt r u s.place = some u' ∧ (u'.place, u'.i) = (t'.place, t'.i) := by
  obtain ⟨hplace, hi⟩ := Prod.mk.inj hplace
  cases s with
  | clear =>
    simp only [taskStep, Option.ite_none_right_eq_some, Option.some.injEq] at h
    obtain ⟨hclearing, rfl⟩ := h
    exact ⟨_, if_pos (hplace.trans hclearing), rfl⟩
  | test =>
    simp only [taskStep, Option.ite_none_right_eq_some, Option.some.injEq] at h
    obtain ⟨htesting, rfl⟩ := h
    exact ⟨_, if_pos (hplace.trans htesting), by simp only [hi, hrequest]⟩
  | probe outcome =>
    simp only [taskStep, Option.ite_none_right_eq_some, Option.some.injEq] at h
    obtain ⟨hprobing, rfl⟩ := h
    exact ⟨_, if_pos (hplace.trans hprobing), by simp only [hi]⟩
  | testPause =>
    simp only [taskStep, Option.ite_none_right_eq_some] at h
    obtain ⟨htesting, h⟩ := h
    rw [TaskStep.place, StopRequest.taskStep, if_pos (hplace.trans htesting), hi, hrequest]
    split at h
    · rename_i hgo
      cases h
      exact ⟨_, if_pos hgo, rfl⟩
    · rename_i hgo
      cases h
      exact ⟨_, if_neg hgo, rfl⟩
  | wake =>
    simp only [taskStep, Option.ite_none_right_eq_some, Option.some.injEq] at h
    obtain ⟨hpausing, rfl⟩ := h
    exact ⟨_, if_pos (hplace.trans hpausing), by simp only [hi]⟩

theorem placed_step {a : Action} {b : StopRequest.Action} (hb : a.place = some b) (hm : Placed m r)
    (h : step sqrt count m a = some m') :
    ∃ r', StopRequest.step count.toInt r b = some r' ∧ Placed m' r' := by
  obtain ⟨hrequest, hremaining, htasks⟩ := hm
  cases a with
  | launch =>
    cases hb
    simp only [step, Option.ite_none_right_eq_some, Option.some.injEq] at h
    obtain ⟨hleft, rfl⟩ := h
    refine ⟨_, if_pos (hremaining ▸ hleft), hrequest, by simp only [hremaining], ?_⟩
    rw [List.map_append, List.map_append, htasks]
    rfl
  | stop =>
    cases hb
    cases h
    exact ⟨_, rfl, rfl, hremaining, htasks⟩
  | task k s =>
    cases hb
    obtain ⟨t, ht, h⟩ := Option.bind_eq_some_iff.mp h
    obtain ⟨t', ht', h⟩ := Option.bind_eq_some_iff.mp h
    cases h
    have hk := congrArg (fun l => l[k]?) htasks
    simp only [List.getElem?_map, ht, Option.map_some, Option.map_eq_some_iff] at hk
    obtain ⟨u, hu, hplace⟩ := hk
    obtain ⟨u', hu', hplace'⟩ := placed_taskStep hrequest hplace ht'
    let r' : StopRequest.PingMonitor := { r with
      stopRequested := if s.place = .clear then false else r.stopRequested
      tasks := r.tasks.set k u' }
    refine ⟨r', ?_, ?_, hremaining, ?_⟩
    · simp only [StopRequest.step, hu, hu', Option.bind_eq_bind, Option.bind_some, r']
    · cases s <;> simp [TaskStep.place, hrequest, r']
    · simp only [List.map_set, htasks, hplace', r']
  | get => cases hb

theorem placed_get (hm : Placed m r) (h : step sqrt count m .get = some m') : Placed m' r := by
  obtain ⟨t, -, h⟩ := Option.bind_eq_some_iff.mp h
  simp only [Option.ite_none_right_eq_some, Option.some.injEq] at h
  obtain ⟨-, rfl⟩ := h
  exact ⟨hm.stopRequested, hm.remaining, hm.tasks⟩

/-- A run of the benchmark is a run of its stop request. -/
theorem placed_run (hm : Placed m r) (h : run (step sqrt count) m as = some m') :
    ∃ r', run (StopRequest.step count.toInt) r (as.filterMap Action.place) = some r' ∧ Placed m' r' := by
  refine run_simulation (fun _ _ _ _ _ hb hm hstep => placed_step hb hm hstep)
    (fun s a t u hnone hm hstep => ?_) hm h
  cases a with
  | get => exact placed_get hm hstep
  | launch => cases hnone
  | stop => cases hnone
  | task => cases hnone

/-! What is sent after Stop. -/

/-- The stop request when it is watched from here on. -/
def PingMonitor.request (m : PingMonitor) : StopRequest.PingMonitor :=
  ⟨m.stopRequested, m.remaining, m.tasks.map fun t => ⟨t.place, t.i, 0⟩, false⟩

theorem placed_request (m : PingMonitor) : Placed m m.request :=
  ⟨rfl, rfl, by rw [PingMonitor.request, List.map_map]; rfl⟩

theorem heeded_request (m : PingMonitor) : StopRequest.Heeded m.request := by
  refine ⟨nofun, fun t ht => ?_⟩
  obtain ⟨t, -, rfl⟩ := List.mem_map.mp ht
  exact ⟨Nat.zero_le 1, nofun, fun _ => rfl⟩

/-- The probes that a task has sent since Stop, none where it is not launched. -/
def late (k : ℕ) (r : StopRequest.PingMonitor) : ℕ := (r.tasks[k]?).elim 0 (·.late)

theorem late_request (k : ℕ) (m : PingMonitor) : late k m.request = 0 := by
  rw [late, PingMonitor.request, List.getElem?_map]
  cases m.tasks[k]? <;> rfl

theorem late_taskStep {c : ℤ} {s : StopRequest.TaskStep} {u' : StopRequest.MonitorTask}
    (hr : r.stopped = true) (h : StopRequest.taskStep c r u s = some u') :
    u'.late = u.late + if s = .probe true then 1 else 0 := by
  cases s with
  | clear | test | wake =>
    simp only [StopRequest.taskStep, Option.ite_none_right_eq_some, Option.some.injEq] at h
    obtain ⟨-, rfl⟩ := h
    rfl
  | probe sends =>
    simp only [StopRequest.taskStep, Option.ite_none_right_eq_some, Option.some.injEq] at h
    obtain ⟨-, rfl⟩ := h
    cases sends <;> simp [hr]
  | testPause =>
    simp only [StopRequest.taskStep, Option.ite_none_right_eq_some] at h
    obtain ⟨-, h⟩ := h
    split at h <;> cases h <;> rfl

theorem late_step {k : ℕ} {c : ℤ} {r' : StopRequest.PingMonitor} {a : StopRequest.Action}
    (hr : r.stopped = true) (h : StopRequest.step c r a = some r') :
    r'.stopped = true ∧ late k r' = late k r + if a = .task k (.probe true) then 1 else 0 := by
  cases a with
  | launch =>
    simp only [StopRequest.step, Option.ite_none_right_eq_some, Option.some.injEq] at h
    obtain ⟨-, rfl⟩ := h
    refine ⟨hr, ?_⟩
    rw [late, late]
    rcases Nat.lt_trichotomy k r.tasks.length with hlt | rfl | hgt
    · simp [List.getElem?_append_left hlt]
    · simp
    · have hlength : (r.tasks ++ [(⟨.clearing, 0, 0⟩ : StopRequest.MonitorTask)]).length ≤ k := by
        rw [List.length_append]
        exact hgt
      simp [List.getElem?_eq_none_iff.mpr hlength, List.getElem?_eq_none_iff.mpr hgt.le]
  | stop =>
    cases h
    exact ⟨rfl, rfl⟩
  | task j s =>
    obtain ⟨u, hu, h⟩ := Option.bind_eq_some_iff.mp h
    obtain ⟨u', hu', h⟩ := Option.bind_eq_some_iff.mp h
    cases h
    refine ⟨hr, ?_⟩
    have hlate := late_taskStep hr hu'
    obtain ⟨hj, -⟩ := List.getElem?_eq_some_iff.mp hu
    rw [late, late]
    by_cases hk : j = k
    · subst hk
      simp only [List.getElem?_set_self hj, hu, Option.elim_some, StopRequest.Action.task.injEq, true_and,
        hlate]
    · simp [List.getElem?_set_ne hk, hk]

theorem late_run {k : ℕ} {c : ℤ} {r' : StopRequest.PingMonitor} {bs : List StopRequest.Action}
    (hr : r.stopped = true) (h : run (StopRequest.step c) r bs = some r') :
    late k r' = late k r + bs.count (.task k (.probe true)) := by
  induction bs generalizing r with
  | nil =>
    cases h
    rfl
  | cons a bs ih =>
    obtain ⟨u, hu, hrun⟩ := run_cons h
    obtain ⟨hstopped, hlate⟩ := @late_step r k c u a hr hu
    rw [ih hstopped hrun, hlate, List.count_cons]
    simp only [beq_iff_eq]
    omega

/-- The probes of a target are those of its task. -/
theorem count_place (k : ℕ) (as : List Action) :
    (as.filterMap Action.place).count (.task k (.probe true)) = (outcomes k as).length := by
  induction as with
  | nil => rfl
  | cons a as ih =>
    rw [outcomes] at ih ⊢
    cases a with
    | task j s =>
      by_cases hj : j = k
      · subst hj
        cases s <;> simp [Action.place, Action.outcome, TaskStep.place, TaskStep.outcome, ih]
      · simp [Action.place, Action.outcome, hj, ih]
    | launch | stop => exact (List.count_cons_of_ne StopRequest.Action.noConfusion).trans ih
    | get => exact ih

/-- Where no monitor starts after a Stop, no target is probed twice after it. -/
theorem outcomes_stop {requested : Bool} {before after : List Action}
    (h : run (step sqrt count) (.initial targets requested) (before ++ .stop :: after) = some m)
    (hclears : ∀ k, .task k .clear ∉ after) (k : ℕ) : (outcomes k after).length ≤ 1 := by
  obtain ⟨m₀, -, hafter⟩ := run_split h
  obtain ⟨r, hr, -⟩ := placed_run (placed_request m₀) hafter
  rw [List.filterMap_cons_some (show Action.place .stop = some .stop from rfl)] at hr
  have hquiet : Along (StopRequest.step count.toInt) StopRequest.ClearsBeforeStop m₀.request
      (.stop :: after.filterMap Action.place) := by
    have hnone : ∀ b ∈ after.filterMap Action.place, ∀ j, b ≠ .task j .clear := by
      rintro b hb j rfl
      obtain ⟨a, ha, hplace⟩ := List.mem_filterMap.mp hb
      cases a with
      | task i s =>
        cases s with
        | clear => exact hclears i ha
        | test | probe | testPause | wake => cases hplace
      | launch | stop | get => cases hplace
    exact ⟨nofun, fun u _ => along_mono (fun v b hb j hj => absurd hj (hb j)) (along_of_forall hnone)⟩
  have hheeded := run_invariant (fun _ _ _ => StopRequest.heeded_step) hquiet (heeded_request m₀) hr
  obtain ⟨u, hu, hrun⟩ := run_cons hr
  cases hu
  have hlate := @late_run _ k _ _ _ rfl hrun
  have hzero : late k { m₀.request with stopRequested := true, stopped := true } = 0 := late_request k m₀
  rw [count_place, hzero, Nat.zero_add] at hlate
  rw [← hlate, late]
  cases hk : r.tasks[k]? with
  | none => exact Nat.zero_le 1
  | some t => exact (hheeded.tasks t (List.mem_of_getElem? hk)).atMostOne

end Disping.Telemetry.MultipleTargets
