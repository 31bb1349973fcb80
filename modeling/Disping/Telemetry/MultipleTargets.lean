import Disping.Telemetry.PingMonitor
import Disping.Telemetry.StopRequest

/-! # A benchmark of several targets

The monitors of a benchmark run at the same time and share the stop request. Each result is the one
that a monitor alone gives for the probes of its target, and the results come in the order of the
targets.
-/
namespace Disping.Telemetry.MultipleTargets
open Transition
open StopRequest (Place)

theorem lost_outcome : (0 : ℚ) ≤ -1 ∨ (-1 : ℚ) = -1 := .inr rfl

def lostProbe : Probe := ⟨-1, lost_outcome⟩

/-- A task and its locals. -/
structure MonitorTask where
  place : Place := .clearing
  i : ℕ := 0
  st : MonitorState := .initial

def MonitorTask.initial : MonitorTask := {}

structure PingMonitor where
  stopRequested : Bool
  /-- the targets whose tasks are not launched yet -/
  remaining : ℕ
  tasks : List MonitorTask
  results : List PingStats

inductive TaskStep
  | clear
  | test
  | probe (outcome : Probe)
  | testPause
  | wake

inductive Action
  /-- The next task is launched. -/
  | launch
  | stop
  | task (k : ℕ) (s : TaskStep)
  /-- The result of the next future, which waits for its task. -/
  | get

def PingMonitor.initial (targets : ℕ) (stopRequested : Bool) : PingMonitor :=
  ⟨stopRequested, targets, [], []⟩

/-- What RunContinuousMonitor returns. -/
def monitorResult (st : MonitorState) : PingStats :=
  if st.stats.received = 0 then { st.stats with minRttMs := 0 } else st.stats

section Steps
variable (sqrt : ℚ → ℚ) (count : BitVec 32)

def taskStep (stopRequested : Bool) (t : MonitorTask) : TaskStep → Option MonitorTask
  | .clear => if t.place = .clearing then some { place := .testing, i := 0, st := .initial } else none
  | .test =>
    if t.place = .testing then
      some { t with
        place := if (t.i : ℤ) < count.toInt ∧ stopRequested = false then .probing else .done }
    else none
  | .probe outcome =>
    if t.place = .probing then
      some { t with place := .testingPause, st := monitorStep sqrt t.st outcome }
    else none
  | .testPause =>
    if t.place = .testingPause then
      if (t.i : ℤ) + 1 < count.toInt ∧ stopRequested = false then some { t with place := .pausing }
      else some { t with place := .testing, i := t.i + 1 }
    else none
  | .wake => if t.place = .pausing then some { t with place := .testing, i := t.i + 1 } else none

def step (m : PingMonitor) : Action → Option PingMonitor
  | .launch =>
    if 0 < m.remaining then
      some { m with remaining := m.remaining - 1, tasks := m.tasks ++ [.initial] }
    else none
  | .stop => some { m with stopRequested := true }
  | .task k s => do
    let t ← m.tasks[k]?
    let t' ← taskStep sqrt count m.stopRequested t s
    some { m with
      stopRequested := match s with
        | .clear => false
        | _ => m.stopRequested
      tasks := m.tasks.set k t' }
  | .get => do
    let t ← m.tasks[m.results.length]?
    if m.remaining = 0 ∧ t.place = .done then
      some { m with results := m.results ++ [monitorResult t.st] }
    else none

end Steps

def TaskStep.outcome : TaskStep → Option Probe
  | probe outcome => some outcome
  | clear | test | testPause | wake => none

/-- The outcome of a probe of the target. -/
def Action.outcome (k : ℕ) : Action → Option Probe
  | task j s => if j = k then s.outcome else none
  | launch | stop | get => none

/-- The outcomes of the target's probes, in order. -/
def outcomes (k : ℕ) (as : List Action) : List Probe := as.filterMap (Action.outcome k)

/-- What a task alone would have come to after the outcomes. -/
structure Alone (sqrt : ℚ → ℚ) (rounds : ℕ) (l : List Probe) (t : MonitorTask) : Prop where
  st : t.st = l.foldl (monitorStep sqrt) .initial
  place : match t.place with
    | .clearing => l = []
    | .testing => l.length = t.i ∧ t.i ≤ rounds
    | .probing => l.length = t.i ∧ t.i < rounds
    | .testingPause | .pausing => l.length = t.i + 1 ∧ t.i < rounds
    | .done => l.length ≤ rounds

variable {sqrt : ℚ → ℚ} {count : BitVec 32} {targets : ℕ} {as before : List Action} {m m' : PingMonitor}
  {t t' : MonitorTask} {l : List Probe} {stopRequested : Bool}

theorem lt_toInt {i : ℕ} : (i : ℤ) < count.toInt ↔ i < count.toInt.toNat := by omega

/-- A step of a task, with the probe it makes. -/
theorem alone_taskStep {s : TaskStep} (ht : Alone sqrt count.toInt.toNat l t)
    (h : taskStep sqrt count stopRequested t s = some t') :
    Alone sqrt count.toInt.toNat (l ++ s.outcome.toList) t' := by
  obtain ⟨hst, hplace⟩ := ht
  cases s with
  | clear =>
    simp only [taskStep, Option.ite_none_right_eq_some, Option.some.injEq] at h
    obtain ⟨hclearing, rfl⟩ := h
    simp only [hclearing] at hplace
    subst hplace
    exact ⟨rfl, rfl, Nat.zero_le _⟩
  | test =>
    simp only [taskStep, Option.ite_none_right_eq_some, Option.some.injEq] at h
    obtain ⟨htesting, rfl⟩ := h
    simp only [htesting] at hplace
    obtain ⟨hlength, hle⟩ := hplace
    rw [TaskStep.outcome, Option.toList_none, List.append_nil]
    refine ⟨hst, ?_⟩
    by_cases hgo : (t.i : ℤ) < count.toInt ∧ stopRequested = false
    · simp only [hgo, and_self, if_true]
      exact ⟨hlength, lt_toInt.mp hgo.1⟩
    · simp only [hgo, if_false]
      omega
  | probe outcome =>
    simp only [taskStep, Option.ite_none_right_eq_some, Option.some.injEq] at h
    obtain ⟨hprobing, rfl⟩ := h
    simp only [hprobing] at hplace
    obtain ⟨hlength, hlt⟩ := hplace
    rw [TaskStep.outcome, Option.toList_some]
    refine ⟨?_, ?_⟩
    · rw [List.foldl_append, List.foldl_cons, List.foldl_nil, hst]
    · simp only [List.length_append, List.length_singleton]
      exact ⟨by rw [hlength], hlt⟩
  | testPause =>
    simp only [taskStep, Option.ite_none_right_eq_some] at h
    obtain ⟨htesting, h⟩ := h
    simp only [htesting] at hplace
    obtain ⟨hlength, hlt⟩ := hplace
    rw [TaskStep.outcome, Option.toList_none, List.append_nil]
    split at h
    · cases h
      exact ⟨hst, hlength, hlt⟩
    · cases h
      exact ⟨hst, hlength, hlt⟩
  | wake =>
    simp only [taskStep, Option.ite_none_right_eq_some, Option.some.injEq] at h
    obtain ⟨hpausing, rfl⟩ := h
    simp only [hpausing] at hplace
    obtain ⟨hlength, hlt⟩ := hplace
    rw [TaskStep.outcome, Option.toList_none, List.append_nil]
    exact ⟨hst, hlength, hlt⟩

/-- A task that is done takes no step, and without a request it gets done at the end of its rounds. -/
theorem taskStep_place {s : TaskStep} (h : taskStep sqrt count stopRequested t s = some t') :
    t.place ≠ .done ∧ t'.place ≠ .clearing ∧ (t.place = .clearing ↔ s = .clear) ∧
      (t'.place = .done → t.place = .testing ∧ s.outcome = none ∧
        (stopRequested = false → count.toInt.toNat ≤ t.i)) := by
  cases s with
  | clear =>
    simp only [taskStep, Option.ite_none_right_eq_some, Option.some.injEq] at h
    obtain ⟨hplace, rfl⟩ := h
    simp [hplace]
  | test =>
    simp only [taskStep, Option.ite_none_right_eq_some, Option.some.injEq] at h
    obtain ⟨hplace, rfl⟩ := h
    refine ⟨by simp [hplace], ?_, by simp [hplace], fun hdone => ⟨hplace, rfl, fun hfalse => ?_⟩⟩
    · dsimp only
      split <;> simp
    · by_cases hlt : (t.i : ℤ) < count.toInt
      · simp [hlt, hfalse] at hdone
      · omega
  | probe outcome =>
    simp only [taskStep, Option.ite_none_right_eq_some, Option.some.injEq] at h
    obtain ⟨hplace, rfl⟩ := h
    simp [hplace]
  | testPause =>
    simp only [taskStep, Option.ite_none_right_eq_some] at h
    obtain ⟨hplace, h⟩ := h
    split at h <;> cases h <;> simp [hplace]
  | wake =>
    simp only [taskStep, Option.ite_none_right_eq_some, Option.some.injEq] at h
    obtain ⟨hplace, rfl⟩ := h
    simp [hplace]

/-- What every step of a benchmark keeps. -/
structure Kept (sqrt : ℚ → ℚ) (rounds targets : ℕ) (before : List Action) (m : PingMonitor) : Prop where
  launched : m.tasks.length + m.remaining = targets
  alone : ∀ (k : ℕ) (t : MonitorTask), m.tasks[k]? = some t → Alone sqrt rounds (outcomes k before) t
  unlaunched : ∀ k, m.tasks.length ≤ k → outcomes k before = []
  results : ∀ (k : ℕ) (stats : PingStats), m.results[k]? = some stats →
    ∃ t : MonitorTask, m.tasks[k]? = some t ∧ t.place = .done ∧ stats = monitorResult t.st
  cleared : Action.stop ∉ before → ∀ t ∈ m.tasks, t.place ≠ .clearing → m.stopRequested = false
  whole : Action.stop ∉ before → ∀ (k : ℕ) (t : MonitorTask), m.tasks[k]? = some t → t.place = .done →
    (outcomes k before).length = rounds

theorem kept_initial (sqrt : ℚ → ℚ) (rounds targets : ℕ) (stopRequested : Bool) :
    Kept sqrt rounds targets [] (.initial targets stopRequested) := by
  refine ⟨Nat.zero_add _, ?_, fun _ _ => rfl, ?_, ?_, ?_⟩
  · simp [PingMonitor.initial]
  · simp [PingMonitor.initial]
  · simp [PingMonitor.initial]
  · simp [PingMonitor.initial]

theorem outcomes_append (k : ℕ) (before : List Action) (a : Action) :
    outcomes k (before ++ [a]) = outcomes k before ++ (a.outcome k).toList := by
  rw [outcomes, List.filterMap_append, List.filterMap_cons, outcomes]
  cases a.outcome k <;> rfl

/-- A step that probes nothing. -/
theorem outcomes_quiet (before : List Action) (a : Action) (h : ∀ k, a.outcome k = none) (k : ℕ) :
    outcomes k (before ++ [a]) = outcomes k before := by
  rw [outcomes_append, h, Option.toList_none, List.append_nil]

theorem not_stop_of_append {a : Action} (h : Action.stop ∉ before ++ [a]) : Action.stop ∉ before :=
  fun hmem => h (List.mem_append_left _ hmem)

theorem kept_launch (hm : Kept sqrt count.toInt.toNat targets before m)
    (h : step sqrt count m .launch = some m') :
    Kept sqrt count.toInt.toNat targets (before ++ [.launch]) m' := by
  simp only [step, Option.ite_none_right_eq_some, Option.some.injEq] at h
  obtain ⟨hremaining, rfl⟩ := h
  have hsame := outcomes_quiet before .launch fun _ => rfl
  have hold : ∀ k t, (m.tasks ++ [.initial])[k]? = some t →
      m.tasks[k]? = some t ∨ k = m.tasks.length ∧ t = .initial := by
    intro k t hk
    rcases Nat.lt_trichotomy k m.tasks.length with hlt | rfl | hgt
    · rw [List.getElem?_append_left hlt] at hk
      exact Or.inl hk
    · simp only [List.getElem?_concat_length, Option.some.injEq] at hk
      exact Or.inr ⟨rfl, hk.symm⟩
    · rw [List.getElem?_eq_none (by simp only [List.length_append, List.length_singleton]; omega)] at hk
      cases hk
  refine ⟨?_, fun k t hk => ?_, fun k hk => ?_, fun k stats hk => ?_, fun hstop t ht hplace => ?_,
    fun hstop k t hk hdone => ?_⟩
  · have hlaunched := hm.launched
    simp only [List.length_append, List.length_singleton]
    omega
  · rw [hsame]
    rcases hold k t hk with hk | ⟨rfl, rfl⟩
    · exact hm.alone k t hk
    · rw [hm.unlaunched _ le_rfl]
      exact ⟨rfl, rfl⟩
  · rw [hsame]
    simp only [List.length_append, List.length_singleton] at hk
    exact hm.unlaunched k (by omega)
  · obtain ⟨t, ht, hdone, hstats⟩ := hm.results k stats hk
    obtain ⟨hlt, -⟩ := List.getElem?_eq_some_iff.mp ht
    exact ⟨t, by rw [List.getElem?_append_left hlt, ht], hdone, hstats⟩
  · rcases List.mem_append.mp ht with ht | ht
    · exact hm.cleared (not_stop_of_append hstop) t ht hplace
    · rw [List.mem_singleton.mp ht] at hplace
      exact absurd rfl hplace
  · rw [hsame]
    rcases hold k t hk with hk | ⟨-, rfl⟩
    · exact hm.whole (not_stop_of_append hstop) k t hk hdone
    · cases hdone

theorem kept_get (hm : Kept sqrt count.toInt.toNat targets before m)
    (h : step sqrt count m .get = some m') :
    Kept sqrt count.toInt.toNat targets (before ++ [.get]) m' := by
  obtain ⟨t, ht, h⟩ := Option.bind_eq_some_iff.mp h
  simp only [Option.ite_none_right_eq_some, Option.some.injEq] at h
  obtain ⟨⟨-, hdone⟩, rfl⟩ := h
  have hsame := outcomes_quiet before .get fun _ => rfl
  refine ⟨hm.launched, fun k u hk => ?_, fun k hk => ?_, fun k stats hk => ?_, fun hstop => ?_,
    fun hstop k u hk hu => ?_⟩
  · rw [hsame]
    exact hm.alone k u hk
  · rw [hsame]
    exact hm.unlaunched k hk
  · rcases Nat.lt_trichotomy k m.results.length with hlt | rfl | hgt
    · rw [List.getElem?_append_left hlt] at hk
      exact hm.results k stats hk
    · simp only [List.getElem?_concat_length, Option.some.injEq] at hk
      exact ⟨t, ht, hdone, hk.symm⟩
    · rw [List.getElem?_eq_none (by simp only [List.length_append, List.length_singleton]; omega)] at hk
      cases hk
  · exact hm.cleared (not_stop_of_append hstop)
  · rw [hsame]
    exact hm.whole (not_stop_of_append hstop) k u hk hu

theorem kept_task {k : ℕ} {s : TaskStep} (hm : Kept sqrt count.toInt.toNat targets before m)
    (h : step sqrt count m (.task k s) = some m') :
    Kept sqrt count.toInt.toNat targets (before ++ [.task k s]) m' := by
  obtain ⟨t, ht, h⟩ := Option.bind_eq_some_iff.mp h
  obtain ⟨t', ht', h⟩ := Option.bind_eq_some_iff.mp h
  cases h
  obtain ⟨hnotDone, hnotClearing, hclear, hlast⟩ := taskStep_place ht'
  obtain ⟨hk, -⟩ := List.getElem?_eq_some_iff.mp ht
  have hown : outcomes k (before ++ [.task k s]) = outcomes k before ++ s.outcome.toList := by
    rw [outcomes_append, Action.outcome, if_pos rfl]
  have hother : ∀ j, j ≠ k → outcomes j (before ++ [.task k s]) = outcomes j before := by
    intro j hj
    rw [outcomes_append, Action.outcome, if_neg (Ne.symm hj), Option.toList_none, List.append_nil]
  have htask : Alone sqrt count.toInt.toNat (outcomes k before ++ s.outcome.toList) t' :=
    alone_taskStep (hm.alone k t ht) ht'
  have hset : ∀ j u, (m.tasks.set k t')[j]? = some u → (j = k ∧ u = t') ∨ (j ≠ k ∧ m.tasks[j]? = some u) := by
    intro j u hj
    by_cases hjk : j = k
    · subst hjk
      rw [List.getElem?_set_self hk] at hj
      exact Or.inl ⟨rfl, (Option.some.inj hj).symm⟩
    · rw [List.getElem?_set_ne (Ne.symm hjk)] at hj
      exact Or.inr ⟨hjk, hj⟩
  refine ⟨by rw [List.length_set, hm.launched], fun j u hj => ?_, fun j hj => ?_, fun j stats hj => ?_,
    fun hstop u hu hplace => ?_, fun hstop j u hj hdone => ?_⟩
  · rcases hset j u hj with ⟨rfl, rfl⟩ | ⟨hne, hj⟩
    · rw [hown]
      exact htask
    · rw [hother j hne]
      exact hm.alone j u hj
  · rw [List.length_set] at hj
    rw [hother j (by omega)]
    exact hm.unlaunched j hj
  · obtain ⟨u, hu, hdone, hstats⟩ := hm.results j stats hj
    refine ⟨u, ?_, hdone, hstats⟩
    have hne : k ≠ j := by
      rintro rfl
      rw [ht] at hu
      cases hu
      exact hnotDone hdone
    rw [List.getElem?_set_ne hne, hu]
  · have hbefore := hm.cleared (not_stop_of_append hstop)
    cases s with
    | clear => rfl
    | _ =>
      have hcleared : t.place ≠ .clearing := by simp [hclear]
      exact hbefore t (List.mem_of_getElem? ht) hcleared
  · have hbefore := not_stop_of_append hstop
    rcases hset j u hj with ⟨rfl, rfl⟩ | ⟨hne, hj⟩
    · obtain ⟨htesting, hquiet, hrounds⟩ := hlast hdone
      have hplace := (hm.alone _ t ht).place
      simp only [htesting] at hplace
      have hfalse : m.stopRequested = false :=
        hm.cleared hbefore t (List.mem_of_getElem? ht) (by simp [htesting])
      have hle := hrounds hfalse
      rw [hown, hquiet, Option.toList_none, List.append_nil]
      omega
    · rw [hother j hne]
      exact hm.whole hbefore j u hj hdone

theorem kept_step {a : Action} (hm : Kept sqrt count.toInt.toNat targets before m)
    (h : step sqrt count m a = some m') : Kept sqrt count.toInt.toNat targets (before ++ [a]) m' := by
  cases a with
  | launch => exact kept_launch hm h
  | task k s => exact kept_task hm h
  | get => exact kept_get hm h
  | stop =>
    cases h
    have hsame := outcomes_quiet before .stop fun _ => rfl
    refine ⟨hm.launched, fun k t hk => ?_, fun k hk => ?_, hm.results, fun hstop => ?_, fun hstop => ?_⟩
    · rw [hsame]
      exact hm.alone k t hk
    · rw [hsame]
      exact hm.unlaunched k hk
    · exact absurd (List.mem_append_right _ (List.mem_singleton_self _)) hstop
    · exact absurd (List.mem_append_right _ (List.mem_singleton_self _)) hstop

section Sequential

/-- The outcomes as the answers to the probes of a monitor alone. -/
def answer (l : List Probe) (i : ℕ) : Probe := l.getD i lostProbe

/-- A monitor that is stopped after the outcomes goes through them. -/
theorem monitorLoop_answer (left i : ℕ) (st : MonitorState) (hi : i ≤ l.length) (hl : l.length ≤ i + left) :
    (monitorLoop sqrt (answer l) (fun j => decide (l.length ≤ j)) left i st).2 =
      (l.drop i).foldl (monitorStep sqrt) st := by
  induction left generalizing i st with
  | zero =>
    rw [List.drop_eq_nil_of_le (by omega)]
    rfl
  | succ left ih =>
    rw [monitorLoop]
    by_cases hend : l.length ≤ i
    · rw [if_pos (decide_eq_true hend), List.drop_eq_nil_of_le hend]
      rfl
    · have hlt : i < l.length := by omega
      have hanswer : answer l i = l[i] := by
        rw [answer, List.getD_eq_getElem?_getD, List.getElem?_eq_getElem hlt, Option.getD_some]
      rw [if_neg (by simpa using hlt), List.drop_eq_getElem_cons hlt, List.foldl_cons, ← hanswer]
      exact ih (i + 1) _ hlt (by omega)

theorem runContinuousMonitor_answer (h : l.length ≤ count.toInt.toNat) :
    (runContinuousMonitor sqrt count (answer l) fun j => decide (l.length ≤ j)).2 =
      monitorResult (l.foldl (monitorStep sqrt) .initial) := by
  have hloop : (monitorLoop sqrt (answer l) (fun j => decide (l.length ≤ j)) count.toInt.toNat 0 .initial).2 =
      l.foldl (monitorStep sqrt) .initial := by
    rw [monitorLoop_answer _ _ _ (Nat.zero_le _) (by omega), List.drop_zero]
  rw [monitorResult, ← hloop]
  rfl

end Sequential

/-- However the tasks interleave, with Stop at any point: the benchmark returns for each target, in
order, what a monitor alone returns for the probes that the target got; and without Stop every target
got all of its probes. -/
theorem benchmarkMultipleTargets_alone (sqrt : ℚ → ℚ) (count : BitVec 32) (targets : ℕ)
    (stopRequested : Bool) (h : run (step sqrt count) (.initial targets stopRequested) as = some m)
    (hreturned : m.results.length = targets) :
    m.results = (List.range targets).map (fun k =>
        (runContinuousMonitor sqrt count (answer (outcomes k as)) fun j =>
          decide ((outcomes k as).length ≤ j)).2) ∧
      (.stop ∉ as → ∀ k < targets, (outcomes k as).length = count.toInt.toNat) := by
  have hkept := run_history (fun _ _ _ _ hm hstep => kept_step hm hstep)
    (kept_initial sqrt count.toInt.toNat targets stopRequested) h
  have hdone : ∀ k < targets, ∃ t : MonitorTask, m.tasks[k]? = some t ∧ t.place = .done ∧
      m.results[k]? = some (monitorResult t.st) := by
    intro k hk
    have hlt : k < m.results.length := by omega
    obtain ⟨t, ht, hplace, hstats⟩ := hkept.results k _ (List.getElem?_eq_getElem hlt)
    exact ⟨t, ht, hplace, by rw [List.getElem?_eq_getElem hlt, hstats]⟩
  constructor
  · refine List.ext_getElem? fun k => ?_
    by_cases hk : k < targets
    · obtain ⟨t, ht, hplace, hstats⟩ := hdone k hk
      obtain ⟨hst, hrounds⟩ := hkept.alone k t ht
      simp only [hplace] at hrounds
      rw [List.getElem?_map, List.getElem?_range hk, Option.map_some, hstats, hst,
        runContinuousMonitor_answer hrounds]
    · rw [List.getElem?_eq_none (by omega), List.getElem?_eq_none]
      rw [List.length_map, List.length_range]
      omega
  · intro hstop k hk
    obtain ⟨t, ht, hplace, -⟩ := hdone k hk
    exact hkept.whole hstop k t ht hplace

section Returning

def Action.isStop : Action → Bool
  | stop => true
  | launch | task _ _ | get => false

/-- A bound on the steps that a task has still to take. -/
def MonitorTask.work (rounds : ℕ) (t : MonitorTask) : ℕ :=
  match t.place with
  | .clearing => 5 * rounds + 2
  | .testing => 5 * (rounds - t.i) + 1
  | .probing => 5 * (rounds - t.i)
  | .testingPause => 5 * (rounds - t.i) - 1
  | .pausing => 5 * (rounds - t.i) - 2
  | .done => 0

def PingMonitor.work (rounds targets : ℕ) (m : PingMonitor) : ℕ :=
  m.remaining * (5 * rounds + 3) + (m.tasks.map (MonitorTask.work rounds)).sum + (targets - m.results.length)

theorem work_taskStep {s : TaskStep} (ht : Alone sqrt count.toInt.toNat l t)
    (h : taskStep sqrt count stopRequested t s = some t') :
    t'.work count.toInt.toNat < t.work count.toInt.toNat := by
  have hplace := ht.place
  cases s with
  | clear =>
    simp only [taskStep, Option.ite_none_right_eq_some, Option.some.injEq] at h
    obtain ⟨hclearing, rfl⟩ := h
    simp only [MonitorTask.work, hclearing]
    omega
  | test =>
    simp only [taskStep, Option.ite_none_right_eq_some, Option.some.injEq] at h
    obtain ⟨htesting, rfl⟩ := h
    by_cases hgo : (t.i : ℤ) < count.toInt ∧ stopRequested = false
    · simp only [MonitorTask.work, htesting, hgo, and_self, if_true]
      omega
    · simp only [MonitorTask.work, htesting, hgo, if_false]
      omega
  | probe outcome =>
    simp only [taskStep, Option.ite_none_right_eq_some, Option.some.injEq] at h
    obtain ⟨hprobing, rfl⟩ := h
    simp only [hprobing] at hplace
    simp only [MonitorTask.work, hprobing]
    omega
  | testPause =>
    simp only [taskStep, Option.ite_none_right_eq_some] at h
    obtain ⟨htesting, h⟩ := h
    simp only [htesting] at hplace
    split at h
    · cases h
      simp only [MonitorTask.work, htesting]
      omega
    · cases h
      simp only [MonitorTask.work, htesting]
      omega
  | wake =>
    simp only [taskStep, Option.ite_none_right_eq_some, Option.some.injEq] at h
    obtain ⟨hpausing, rfl⟩ := h
    simp only [hpausing] at hplace
    simp only [MonitorTask.work, hpausing]
    omega

theorem sum_map_set {α : Type} {f : α → ℕ} {l : List α} {k : ℕ} {a : α} (h : l[k]? = some a) (b : α) :
    ((l.set k b).map f).sum + f a = (l.map f).sum + f b := by
  induction l generalizing k with
  | nil => simp at h
  | cons c l ih =>
    cases k with
    | zero =>
      simp only [List.getElem?_cons_zero, Option.some.injEq] at h
      subst h
      simp only [List.set_cons_zero, List.map_cons, List.sum_cons]
      omega
    | succ k =>
      have hrest := ih (by simpa using h)
      simp only [List.set_cons_succ, List.map_cons, List.sum_cons]
      omega

theorem results_le (hm : Kept sqrt count.toInt.toNat targets before m) :
    m.results.length ≤ m.tasks.length := by
  by_contra hlt
  have hindex : m.tasks.length < m.results.length := by omega
  obtain ⟨t, ht, -⟩ := hm.results _ _ (List.getElem?_eq_getElem hindex)
  rw [List.getElem?_eq_none le_rfl] at ht
  cases ht

/-- Every step but Stop takes from the work that is left. -/
theorem work_step {a : Action} (hm : Kept sqrt count.toInt.toNat targets before m)
    (h : step sqrt count m a = some m') :
    m'.work count.toInt.toNat targets + (if a.isStop then 0 else 1) ≤ m.work count.toInt.toNat targets := by
  cases a with
  | launch =>
    simp only [step, Option.ite_none_right_eq_some, Option.some.injEq] at h
    obtain ⟨hremaining, rfl⟩ := h
    obtain ⟨n, hn⟩ := Nat.exists_eq_succ_of_ne_zero (Nat.ne_of_gt hremaining)
    have htask : MonitorTask.initial.work count.toInt.toNat = 5 * count.toInt.toNat + 2 := rfl
    simp only [PingMonitor.work, hn, List.map_append, List.map_singleton, List.sum_append, List.sum_singleton,
      htask, Action.isStop, Nat.succ_eq_add_one, Nat.add_sub_cancel, Nat.add_mul, Bool.false_eq_true, if_false]
    omega
  | stop =>
    cases h
    exact le_rfl
  | task k s =>
    obtain ⟨t, ht, h⟩ := Option.bind_eq_some_iff.mp h
    obtain ⟨t', ht', h⟩ := Option.bind_eq_some_iff.mp h
    cases h
    have hlt := work_taskStep (hm.alone k t ht) ht'
    have hsum := sum_map_set (f := MonitorTask.work count.toInt.toNat) ht t'
    simp only [PingMonitor.work, Action.isStop, Bool.false_eq_true, if_false]
    omega
  | get =>
    obtain ⟨t, ht, h⟩ := Option.bind_eq_some_iff.mp h
    simp only [Option.ite_none_right_eq_some, Option.some.injEq] at h
    obtain ⟨-, rfl⟩ := h
    obtain ⟨hlt, -⟩ := List.getElem?_eq_some_iff.mp ht
    have hlaunched := hm.launched
    simp only [PingMonitor.work, List.length_append, List.length_singleton, Action.isStop,
      Bool.false_eq_true, if_false]
    omega

theorem taskStep_enabled (sqrt : ℚ → ℚ) (count : BitVec 32) (stopRequested : Bool) (h : t.place ≠ .done) :
    ∃ s, (taskStep sqrt count stopRequested t s).isSome = true := by
  cases hplace : t.place with
  | clearing => exact ⟨.clear, by simp [taskStep, hplace]⟩
  | testing => exact ⟨.test, by simp [taskStep, hplace]⟩
  | probing => exact ⟨.probe lostProbe, by simp [taskStep, hplace]⟩
  | testingPause =>
    refine ⟨.testPause, ?_⟩
    simp only [taskStep, hplace, if_true]
    split <;> rfl
  | pausing => exact ⟨.wake, by simp [taskStep, hplace]⟩
  | done => exact absurd hplace h

/-- A benchmark that has not returned goes on. -/
theorem step_enabled (hm : Kept sqrt count.toInt.toNat targets before m) (h : m.results.length ≠ targets) :
    ∃ a, a ≠ .stop ∧ (step sqrt count m a).isSome = true := by
  have hlaunched := hm.launched
  have hle := results_le hm
  by_cases hremaining : 0 < m.remaining
  · exact ⟨.launch, nofun, by simp [step, hremaining]⟩
  · have hlt : m.results.length < m.tasks.length := by omega
    have hzero : m.remaining = 0 := by omega
    have ht : m.tasks[m.results.length]? = some m.tasks[m.results.length] := List.getElem?_eq_getElem hlt
    by_cases hdone : m.tasks[m.results.length].place = .done
    · exact ⟨.get, nofun, by simp [step, ht, hzero, hdone]⟩
    · obtain ⟨s, hs⟩ := taskStep_enabled sqrt count m.stopRequested hdone
      obtain ⟨t', ht'⟩ := Option.isSome_iff_exists.mp hs
      exact ⟨.task m.results.length s, nofun, by simp [step, ht, ht']⟩

/-- The steps taken and the work that is left. -/
def Working (sqrt : ℚ → ℚ) (count : BitVec 32) (targets : ℕ) (taken : List Action) (m : PingMonitor) : Prop :=
  Kept sqrt count.toInt.toNat targets taken m ∧
    m.work count.toInt.toNat targets + taken.countP (fun a => !a.isStop) ≤
      targets * (5 * count.toInt.toNat + 4)

theorem working_step {a : Action} (hm : Working sqrt count targets before m)
    (h : step sqrt count m a = some m') : Working sqrt count targets (before ++ [a]) m' := by
  obtain ⟨hkept, hwork⟩ := hm
  refine ⟨kept_step hkept h, ?_⟩
  have hless := work_step hkept h
  rw [List.countP_append, List.countP_singleton]
  cases ha : a.isStop with
  | false =>
    simp only [ha, Bool.false_eq_true, if_false] at hless
    simp only [Bool.not_false, if_true]
    omega
  | true =>
    simp only [ha, if_true] at hless
    simp only [Bool.not_true, Bool.false_eq_true, if_false]
    omega

end Returning

/-- A benchmark returns: there is a bound on its steps, Stop apart, and until it returns it has one. -/
theorem benchmarkMultipleTargets_returns (sqrt : ℚ → ℚ) (count : BitVec 32) (targets : ℕ)
    (stopRequested : Bool) (h : run (step sqrt count) (.initial targets stopRequested) as = some m) :
    as.countP (fun a => !a.isStop) ≤ targets * (5 * count.toInt.toNat + 4) ∧
      (m.results.length ≠ targets → ∃ a, a ≠ .stop ∧ (step sqrt count m a).isSome = true) := by
  have hinitial : (PingMonitor.initial targets stopRequested).work count.toInt.toNat targets =
      targets * (5 * count.toInt.toNat + 4) := by
    simp only [PingMonitor.work, PingMonitor.initial, List.map_nil, List.sum_nil, List.length_nil]
    ring_nf
    omega
  have hstart : Working sqrt count targets [] (.initial targets stopRequested) :=
    ⟨kept_initial sqrt _ targets stopRequested, hinitial.le⟩
  obtain ⟨hkept, hwork⟩ := run_history (fun _ _ _ _ hm hstep => working_step hm hstep) hstart h
  exact ⟨by omega, step_enabled hkept⟩

def replyIn (ms : ℕ) : Probe := ⟨ms, .inl ms.cast_nonneg⟩

/-- Two targets with one probe each; the second task is the first one to be done. -/
def twoTargets : List Action :=
  [.launch, .task 0 .clear, .launch, .task 1 .clear, .task 1 .test, .task 0 .test,
    .task 1 (.probe (replyIn 7)), .task 1 .testPause, .task 1 .test,
    .task 0 (.probe (replyIn 5)), .task 0 .testPause, .task 0 .test, .get, .get]

theorem benchmarkMultipleTargets_alone_twoTargets : ∃ m,
    run (step id 1) (.initial 2 true) twoTargets = some m ∧
      m.results = (List.range 2).map (fun k =>
        (runContinuousMonitor id 1 (answer (outcomes k twoTargets)) fun j =>
          decide ((outcomes k twoTargets).length ≤ j)).2) := by
  obtain ⟨m, hm⟩ : ∃ m, run (step id 1) (.initial 2 true) twoTargets = some m := ⟨_, rfl⟩
  have hreturned : m.results.length = 2 := by
    cases hm
    rfl
  exact ⟨m, hm, (benchmarkMultipleTargets_alone id 1 2 true hm hreturned).1⟩

theorem benchmarkMultipleTargets_returns_twoTargets : ∃ m,
    run (step id 1) (.initial 2 true) (twoTargets.take 5) = some m ∧
      ∃ a, a ≠ .stop ∧ (step id 1 m a).isSome = true := by
  obtain ⟨m, hm⟩ : ∃ m, run (step id 1) (.initial 2 true) (twoTargets.take 5) = some m := ⟨_, rfl⟩
  have hreturned : m.results.length ≠ 2 := by
    cases hm
    decide
  exact ⟨m, hm, (benchmarkMultipleTargets_returns id 1 2 true hm).2 hreturned⟩

end Disping.Telemetry.MultipleTargets
