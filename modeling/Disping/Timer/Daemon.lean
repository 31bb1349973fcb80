import Disping.Timer.Balance
import Disping.Transition.Runs

/-! # Lifecycle of the timer daemon

The owner's calls and the body of the daemon thread, one atomic access at a time. Only the owner
writes the flag, so it tells whether a thread is joinable, and each thread sets the timer once and
restores it once.
-/
namespace Disping.Timer.Daemon
open Transition

/-- Where a daemon thread is in its body. -/
inductive DaemonPc
  /-- SetHighResolutionTimer is next, with the captured target. -/
  | setting (targetMs : ℚ)
  /-- At the condition of the loop. -/
  | looping
  | restoring | returned
deriving DecidableEq

/-- Where the owner is; `destroying` marks the Stop that the destructor calls. -/
inductive OwnerPc
  | idle
  | stopStore (destroying : Bool)
  | stopJoin (destroying : Bool)
  | startStore (targetMs : ℚ)
  | startSpawn (targetMs : ℚ)
  | startAssign
  /-- The RestoreTimerResolution of the destructor. -/
  | destroyRestore
  | destroyMember
  | destroyed
  /-- std::terminate has been called. -/
  | terminated
deriving DecidableEq

/-- The object with its thread, and the timer members with the system's record. -/
structure SystemLatencyOptimizer where
  owner : OwnerPc
  daemonRunning : Bool
  /-- m_daemonThread, joinable when it holds a thread. -/
  daemonThread : Option DaemonPc
  /-- The temporary that StartTimerDaemon constructs and then assigns. -/
  spawned : Option DaemonPc
  timed : Timed

def SystemLatencyOptimizer.initial (available : Bool) : SystemLatencyOptimizer :=
  ⟨.idle, false, none, none, .initial available⟩

inductive DaemonStep
  | set (targetMs : ℚ) (o : SetOutcome)
  /-- The flag found set, and Sleep(100). -/
  | iterate
  /-- The flag found cleared. -/
  | leave
  | restore (o : RestoreOutcome)

inductive Action
  | callStart (targetMs : ℚ)
  | callStop
  | destroy
  /-- The next access of the call that the owner is in. -/
  | owner
  /-- The destructor restores the timer. -/
  | ownerRestore (o : RestoreOutcome)
  /-- A step of the thread in m_daemonThread, or of the one still in the temporary. -/
  | daemon (w : DaemonStep)
  | newDaemon (w : DaemonStep)

/-- The body of the thread: where a step leads. -/
def daemonStep (running : Bool) : DaemonPc → DaemonStep → Option DaemonPc
  | .setting targetMs, .set targetMs' _ => if targetMs' = targetMs then some .looping else none
  | .looping, .iterate => if running then some .looping else none
  | .looping, .leave => if running then none else some .restoring
  | .restoring, .restore _ => some .returned
  | _, _ => none

/-- The call on the timer members that the step makes. -/
def DaemonStep.call : DaemonStep → Option TimerCall
  | .set targetMs o => some (.set targetMs o)
  | .restore o => some (.restore o)
  | .iterate | .leave => none

def applyCall (t : Timed) (c : Option TimerCall) : Timed := c.elim t (TimerCall.apply t)

/-- StopTimerDaemon is left for the caller or, in the destructor, for the restore. -/
def afterStop (destroying : Bool) : OwnerPc := if destroying then .destroyRestore else .idle

/-- The owner's accesses inside StopTimerDaemon, StartTimerDaemon and the member destructor. -/
def ownerStep (s : SystemLatencyOptimizer) : Option SystemLatencyOptimizer :=
  match s.owner with
  | .stopStore destroying => some { s with owner := .stopJoin destroying, daemonRunning := false }
  | .stopJoin destroying =>
    match s.daemonThread with
    | none => some { s with owner := afterStop destroying }
    | some .returned => some { s with owner := afterStop destroying, daemonThread := none }
    | some _ => none
  | .startStore targetMs => some { s with owner := .startSpawn targetMs, daemonRunning := true }
  | .startSpawn targetMs => some { s with owner := .startAssign, spawned := some (.setting targetMs) }
  | .startAssign =>
    if s.daemonThread.isSome then some { s with owner := .terminated }
    else some { s with owner := .idle, daemonThread := s.spawned, spawned := none }
  | .destroyMember =>
    if s.daemonThread.isSome then some { s with owner := .terminated }
    else some { s with owner := .destroyed }
  | .idle | .destroyRestore | .destroyed | .terminated => none

def step (s : SystemLatencyOptimizer) : Action → Option SystemLatencyOptimizer
  | .callStart targetMs =>
    if s.owner = .idle then
      some (if s.daemonRunning then s else { s with owner := .startStore targetMs })
    else none
  | .callStop =>
    if s.owner = .idle then
      some (if s.daemonRunning then { s with owner := .stopStore false } else s)
    else none
  | .destroy =>
    if s.owner = .idle then
      some (if s.daemonRunning then { s with owner := .stopStore true }
        else { s with owner := .destroyRestore })
    else none
  | .owner => ownerStep s
  | .ownerRestore o =>
    if s.owner = .destroyRestore then
      some { s with owner := .destroyMember, timed := restoreTimerResolution o s.timed }
    else none
  | .daemon w =>
    if s.owner = .terminated then none
    else s.daemonThread.bind fun pc => (daemonStep s.daemonRunning pc w).map fun pc' =>
      { s with daemonThread := some pc', timed := applyCall s.timed w.call }
  | .newDaemon w =>
    if s.owner = .terminated then none
    else s.spawned.bind fun pc => (daemonStep s.daemonRunning pc w).map fun pc' =>
      { s with spawned := some pc', timed := applyCall s.timed w.call }

/-- The call on the timer members that a daemon thread makes in the step. -/
def Action.call : Action → Option TimerCall
  | .daemon w | .newDaemon w => w.call
  | _ => none

/-- What one daemon thread does to the timer. -/
structure Session where
  targetMs : ℚ
  setOutcome : SetOutcome
  restoreOutcome : RestoreOutcome

def Session.calls (x : Session) : List TimerCall :=
  [.set x.targetMs x.setOutcome, .restore x.restoreOutcome]

/-- The flag tells whether a thread is joinable, wherever the owner relies on it. -/
def Tied (s : SystemLatencyOptimizer) : Prop :=
  match s.owner with
  | .idle => s.daemonRunning = s.daemonThread.isSome ∧ s.spawned = none
  | .stopStore _ => s.daemonThread.isSome = true ∧ s.spawned = none
  | .stopJoin _ => s.daemonRunning = false ∧ s.daemonThread.isSome = true ∧ s.spawned = none
  | .startStore _ => s.daemonThread = none ∧ s.spawned = none
  | .startSpawn _ => s.daemonRunning = true ∧ s.daemonThread = none ∧ s.spawned = none
  | .startAssign => s.daemonRunning = true ∧ s.daemonThread = none ∧ s.spawned.isSome = true
  | .destroyRestore | .destroyMember | .destroyed => s.daemonThread = none ∧ s.spawned = none
  | .terminated => False

/-- The thread there is, joinable or still in the temporary. -/
def SystemLatencyOptimizer.thread (s : SystemLatencyOptimizer) : Option DaemonPc :=
  s.daemonThread.or s.spawned

/-- The calls so far come from whole sessions and from the thread there is. -/
def Paired (calls : List TimerCall) : Option DaemonPc → Prop
  | some .looping | some .restoring => ∃ (sessions : List Session) (targetMs : ℚ) (o : SetOutcome),
      calls = sessions.flatMap Session.calls ++ [.set targetMs o]
  | _ => ∃ sessions : List Session, calls = sessions.flatMap Session.calls

section Steps
variable {s t : SystemLatencyOptimizer} {pc pc' : DaemonPc} {w : DaemonStep}

/-- A step of a thread goes on with the pairing. -/
theorem paired_daemonStep {running : Bool} {calls : List TimerCall} (hs : Paired calls (some pc))
    (h : daemonStep running pc w = some pc') : Paired (calls ++ w.call.toList) (some pc') := by
  cases pc with
  | setting targetMs =>
    obtain ⟨sessions, rfl⟩ := hs
    cases w <;> simp only [daemonStep, reduceCtorEq] at h
    rename_i targetMs' o
    split at h
    · cases h
      exact ⟨sessions, targetMs', o, rfl⟩
    · cases h
  | looping =>
    cases w <;> simp only [daemonStep, reduceCtorEq] at h
    all_goals
      split at h <;> cases h
      simpa [DaemonStep.call, Paired] using hs
  | restoring =>
    obtain ⟨sessions, targetMs, o, rfl⟩ := hs
    cases w <;> simp only [daemonStep, reduceCtorEq, Option.some.injEq] at h
    rename_i r
    subst h
    exact ⟨sessions ++ [⟨targetMs, o, r⟩], by simp [DaemonStep.call, Session.calls]⟩
  | returned => cases w <;> simp [daemonStep] at h

/-- What a step of a thread does to the object. -/
theorem daemonAction_cases {a : Action} (ha : a = .daemon w ∨ a = .newDaemon w)
    (h : step s a = some t) : s.owner ≠ .terminated ∧ ∃ pc pc', daemonStep s.daemonRunning pc w = some pc' ∧
      (s.daemonThread = some pc ∧
        t = { s with daemonThread := some pc', timed := applyCall s.timed w.call } ∨
      s.spawned = some pc ∧ t = { s with spawned := some pc', timed := applyCall s.timed w.call }) := by
  rcases ha with rfl | rfl
  all_goals
    simp only [step, Option.ite_none_left_eq_some] at h
    obtain ⟨hterm, h⟩ := h
    obtain ⟨pc, hpc, hmap⟩ := Option.bind_eq_some_iff.mp h
    obtain ⟨pc', hstep, rfl⟩ := Option.map_eq_some_iff.mp hmap
    exact ⟨hterm, pc, pc', hstep, by simp [hpc]⟩

/-- A call is started by an idle owner and reads the flag. -/
theorem call_cases {a : Action} (ha : (∃ targetMs, a = .callStart targetMs) ∨ a = .callStop ∨ a = .destroy)
    (h : step s a = some t) : s.owner = .idle ∧
      (t = s ∨ s.daemonRunning = false ∧ (∃ targetMs, t = { s with owner := .startStore targetMs }) ∨
      s.daemonRunning = false ∧ t = { s with owner := .destroyRestore } ∨
      s.daemonRunning = true ∧ ∃ destroying, t = { s with owner := .stopStore destroying }) := by
  rcases ha with ⟨targetMs, rfl⟩ | rfl | rfl
  all_goals
    simp only [step, Option.ite_none_right_eq_some, Option.some.injEq] at h
    obtain ⟨hidle, rfl⟩ := h
    cases hr : s.daemonRunning <;> simp [hidle]

/-- What an access of the owner leads to. -/
theorem owner_cases (h : ownerStep s = some t) :
    (∃ destroying, s.owner = .stopStore destroying ∧
      t = { s with owner := .stopJoin destroying, daemonRunning := false }) ∨
    (∃ destroying, s.owner = .stopJoin destroying ∧ (s.daemonThread = none ∨ s.daemonThread = some .returned) ∧
      t = { s with owner := afterStop destroying, daemonThread := none }) ∨
    (∃ targetMs, s.owner = .startStore targetMs ∧
      t = { s with owner := .startSpawn targetMs, daemonRunning := true }) ∨
    (∃ targetMs, s.owner = .startSpawn targetMs ∧
      t = { s with owner := .startAssign, spawned := some (.setting targetMs) }) ∨
    (s.owner = .startAssign ∧ s.daemonThread = none ∧
      t = { s with owner := .idle, daemonThread := s.spawned, spawned := none }) ∨
    (s.owner = .destroyMember ∧ s.daemonThread = none ∧ t = { s with owner := .destroyed }) ∨
    ((s.owner = .startAssign ∨ s.owner = .destroyMember) ∧ s.daemonThread.isSome = true ∧
      t = { s with owner := .terminated }) := by
  cases ho : s.owner with
  | stopJoin destroying =>
    cases hthread : s.daemonThread with
    | none =>
      simp only [ownerStep, ho, hthread, Option.some.injEq] at h
      subst h
      simp
    | some pc => cases pc <;> simp_all [ownerStep]
  | startAssign | destroyMember => cases hthread : s.daemonThread <;> simp_all [ownerStep]
  | _ => simp_all [ownerStep]

theorem tied_step {a : Action} (hs : Tied s) (h : step s a = some t) : Tied t := by
  have hcall : (∃ targetMs, a = .callStart targetMs) ∨ a = .callStop ∨ a = .destroy → Tied t := by
    intro ha
    obtain ⟨hidle, hcases⟩ := call_cases ha h
    have hidleTied := hs
    simp only [Tied, hidle] at hidleTied
    obtain ⟨hflag, hspawned⟩ := hidleTied
    rcases hcases with rfl | ⟨hr, targetMs, rfl⟩ | ⟨hr, rfl⟩ | ⟨hr, destroying, rfl⟩
    · exact hs
    · simpa [Tied, hspawned, hr] using hflag
    · simpa [Tied, hspawned, hr] using hflag
    · simpa [Tied, hspawned, hr] using hflag.symm
  have hdaemon : ∀ w, a = .daemon w ∨ a = .newDaemon w → Tied t := by
    intro w ha
    obtain ⟨hterm, pc, pc', hstep, ⟨hthread, rfl⟩ | ⟨hspawned, rfl⟩⟩ := daemonAction_cases ha h
    · cases ho : s.owner <;> simp_all [Tied]
    · cases ho : s.owner <;> simp_all [Tied]
  cases a with
  | callStart targetMs => exact hcall (.inl ⟨targetMs, rfl⟩)
  | callStop => exact hcall (.inr (.inl rfl))
  | destroy => exact hcall (.inr (.inr rfl))
  | owner =>
    rcases owner_cases h with ⟨destroying, ho, rfl⟩ | ⟨destroying, ho, hdone, rfl⟩ | ⟨targetMs, ho, rfl⟩ |
      ⟨targetMs, ho, rfl⟩ | ⟨ho, hthread, rfl⟩ | ⟨ho, hthread, rfl⟩ | ⟨ho, hthread, rfl⟩
    · simpa [Tied, ho] using hs
    · simp only [Tied, ho] at hs
      cases destroying <;> simp [Tied, afterStop, hs]
    · simpa [Tied, ho] using hs
    · simp only [Tied, ho] at hs
      simp [Tied, hs]
    · simp only [Tied, ho] at hs
      simp [Tied, hs]
    · simpa [Tied, ho] using hs
    · rcases ho with ho | ho <;> simp_all [Tied]
  | ownerRestore o =>
    simp only [step, Option.ite_none_right_eq_some, Option.some.injEq] at h
    obtain ⟨ho, rfl⟩ := h
    simpa [Tied, ho] using hs
  | daemon w => exact hdaemon w (.inl rfl)
  | newDaemon w => exact hdaemon w (.inr rfl)

end Steps

section Sessions
variable {available : Bool}

theorem runCalls_append_toList (calls : List TimerCall) (c : Option TimerCall) :
    runCalls available (calls ++ c.toList) = applyCall (runCalls available calls) c := by
  cases c with
  | none => simp [applyCall]
  | some c => exact runCalls_concat available calls c

theorem restoreTimerResolution_timerSet (o : RestoreOutcome) (t : Timed) :
    (restoreTimerResolution o t).optimizer.timerSet = false := by
  unfold restoreTimerResolution
  split
  · rfl
  · rename_i hset
    simpa using hset

theorem restoreTimerResolution_unset {t : Timed} (o : RestoreOutcome)
    (h : t.optimizer.timerSet = false) : restoreTimerResolution o t = t := by
  rw [restoreTimerResolution, h]
  rfl

theorem runCalls_session (sessions : List Session) (x : Session) :
    runCalls available ((sessions ++ [x]).flatMap Session.calls) =
      restoreTimerResolution x.restoreOutcome (setHighResolutionTimer x.targetMs x.setOutcome
        (runCalls available (sessions.flatMap Session.calls))).2 := by
  simp [runCalls, Session.calls, TimerCall.apply]

theorem runCalls_sessions_timerSet (sessions : List Session) :
    (runCalls available (sessions.flatMap Session.calls)).optimizer.timerSet = false := by
  rcases List.eq_nil_or_concat sessions with rfl | ⟨sessions, x, rfl⟩
  · rfl
  · rw [List.concat_eq_append, runCalls_session]
    exact restoreTimerResolution_timerSet _ _

/-- What the thread asks of the system is taken back by its restore. -/
structure Session.TakenBack (x : Session) : Prop where
  /-- timeBeginPeriod is asked for 1 ms, the period that timeEndPeriod is called with. -/
  period : x.targetMs < 2
  released : x.restoreOutcome.ntStatus = 0
  ended : x.restoreOutcome.ended = true

theorem fallbackPeriod_of_lt {targetMs : ℚ} (h : targetMs < 2) : fallbackPeriod targetMs = 1 := by
  unfold fallbackPeriod truncated
  split
  · simp
  · rename_i hone
    have hfloor : ⌊targetMs⌋ = 1 := by
      rw [Int.floor_eq_iff]
      constructor
      · simpa using hone
      · norm_num
        exact h
    rw [hfloor]
    rfl

theorem session_idle {t : Timed} {x : Session} (hx : x.TakenBack) (hset : t.optimizer.timerSet = false)
    (hidle : t.ledger.Idle) :
    (restoreTimerResolution x.restoreOutcome
      (setHighResolutionTimer x.targetMs x.setOutcome t).2).ledger.Idle := by
  obtain ⟨hperiods, hrequest⟩ := hidle
  have heffect := setHighResolutionTimer_effect x.targetMs x.setOutcome t
  obtain ⟨hnt, htimer, hbegun, -, hheld⟩ := heffect
  rw [fallbackPeriod_of_lt hx.period, hperiods, List.nil_append] at hbegun
  rw [hset, Bool.false_or] at htimer
  rw [hrequest] at hheld
  generalize (setHighResolutionTimer x.targetMs x.setOutcome t).2 = u at *
  unfold restoreTimerResolution
  rw [htimer, hnt]
  cases hg : x.setOutcome.granted t.optimizer.ntAvailable with
  | true =>
    have havailable : t.optimizer.ntAvailable = true := (Bool.and_eq_true _ _ ▸ hg).1
    have hnone : u.ledger.periods = [] := by simpa [SetOutcome.fallsBack, hg] using hbegun
    simp [havailable, Ledger.ntRelease, hx.released, Ledger.endPeriod, hnone, Ledger.Idle]
  | false =>
    have hnone : u.ledger.ntRequest = none := by simpa [hg] using hheld
    have hrelease : ∀ l : Ledger, l = (if t.optimizer.ntAvailable then u.ledger.ntRelease
        x.restoreOutcome.ntStatus else u.ledger) → l.periods = u.ledger.periods ∧ l.ntRequest = none := by
      rintro l rfl
      unfold Ledger.ntRelease
      split_ifs <;> simp [hnone]
    cases hb : x.setOutcome.began with
    | true =>
      have hone : u.ledger.periods = [1] := by simpa [SetOutcome.fallsBack, hg, hb] using hbegun
      obtain ⟨hp, hr⟩ := hrelease _ rfl
      rw [hone] at hp
      simp [Ledger.endPeriod, hp, hr, hx.ended, Ledger.Idle]
    | false =>
      have hempty : u.ledger.periods = [] := by simpa [SetOutcome.fallsBack, hg, hb] using hbegun
      exact ⟨hempty, hnone⟩

theorem runCalls_sessions_idle {sessions : List Session} (h : ∀ x ∈ sessions, x.TakenBack) :
    (runCalls available (sessions.flatMap Session.calls)).ledger.Idle := by
  induction sessions using List.reverseRecOn with
  | nil => exact ⟨rfl, rfl⟩
  | append_singleton sessions x ih =>
    rw [runCalls_session]
    exact session_idle (h x (by simp)) (runCalls_sessions_timerSet sessions)
      (ih fun y hy => h y (by simp [hy]))

end Sessions

section Runs
variable {available : Bool} {s t : SystemLatencyOptimizer} {as : List Action}

/-- What holds between two steps, with the calls that the threads have made so far. -/
structure Kept (available : Bool) (calls : List TimerCall) (s : SystemLatencyOptimizer) : Prop where
  tied : Tied s
  timed : s.timed = runCalls available calls
  paired : Paired calls s.thread

theorem kept_initial : Kept available [] (.initial available) :=
  ⟨⟨rfl, rfl⟩, rfl, [], rfl⟩

/-- Where a thread is joinable, none is in the temporary. -/
theorem Tied.spawned_none (hs : Tied s) (h : s.daemonThread.isSome = true) : s.spawned = none := by
  cases ho : s.owner <;> simp_all [Tied]

theorem kept_daemonAction {calls : List TimerCall} {w : DaemonStep} {a : Action}
    (ha : a = .daemon w ∨ a = .newDaemon w) (hs : Kept available calls s) (h : step s a = some t) :
    Kept available (calls ++ w.call.toList) t := by
  have htied := tied_step hs.tied h
  have hpaired := hs.paired
  obtain ⟨hterm, pc, pc', hstep, ⟨hthread, rfl⟩ | ⟨hspawned, rfl⟩⟩ := daemonAction_cases ha h
  · refine ⟨htied, by rw [runCalls_append_toList, hs.timed], ?_⟩
    simp only [SystemLatencyOptimizer.thread, hthread, Option.some_or] at hpaired ⊢
    exact paired_daemonStep hpaired hstep
  · have hthread : s.daemonThread = none := by
      rw [← Option.not_isSome_iff_eq_none]
      intro hsome
      rw [hs.tied.spawned_none hsome] at hspawned
      cases hspawned
    refine ⟨htied, by rw [runCalls_append_toList, hs.timed], ?_⟩
    simp only [SystemLatencyOptimizer.thread, hthread, hspawned, Option.none_or] at hpaired ⊢
    exact paired_daemonStep hpaired hstep

/-- A step that makes no call keeps the pairing as long as no thread appears or goes in its middle. -/
theorem Kept.of_quiet {calls : List TimerCall} (hs : Kept available calls s) (ht : Tied t)
    (htimed : t.timed = s.timed) (hthread : t.thread = s.thread ∨
      ∃ sessions : List Session, calls = sessions.flatMap Session.calls ∧
        (t.thread = none ∨ ∃ targetMs, t.thread = some (.setting targetMs))) :
    Kept available calls t := by
  refine ⟨ht, htimed.trans hs.timed, ?_⟩
  rcases hthread with hsame | ⟨sessions, hcalls, hnone | ⟨targetMs, hsetting⟩⟩
  · rw [hsame]
    exact hs.paired
  · rw [hnone]
    exact ⟨sessions, hcalls⟩
  · rw [hsetting]
    exact ⟨sessions, hcalls⟩

theorem kept_owner {calls : List TimerCall} (hs : Kept available calls s) (h : ownerStep s = some t) :
    Kept available calls t := by
  have htied : Tied t := tied_step (a := .owner) hs.tied h
  have hpaired := hs.paired
  have hsound := hs.tied
  rcases owner_cases h with ⟨destroying, ho, rfl⟩ | ⟨destroying, ho, hdone, rfl⟩ | ⟨targetMs, ho, rfl⟩ |
    ⟨targetMs, ho, rfl⟩ | ⟨ho, hthread, rfl⟩ | ⟨ho, hthread, rfl⟩ | ⟨ho, hthread, rfl⟩
  · exact hs.of_quiet htied rfl (.inl rfl)
  · simp only [Tied, ho] at hsound
    refine hs.of_quiet htied rfl (.inr ?_)
    rcases hdone with hnone | hreturned
    · simp [hnone] at hsound
    · simp only [SystemLatencyOptimizer.thread, hreturned, Option.some_or] at hpaired
      obtain ⟨sessions, hcalls⟩ := hpaired
      exact ⟨sessions, hcalls, .inl (by simp [SystemLatencyOptimizer.thread, hsound])⟩
  · exact hs.of_quiet htied rfl (.inl rfl)
  · simp only [Tied, ho] at hsound
    simp only [SystemLatencyOptimizer.thread, hsound, Option.none_or] at hpaired
    obtain ⟨sessions, hcalls⟩ := hpaired
    refine hs.of_quiet htied rfl (.inr ⟨sessions, hcalls, .inr ⟨targetMs, ?_⟩⟩)
    simp [SystemLatencyOptimizer.thread, hsound]
  · refine hs.of_quiet htied rfl (.inl ?_)
    simp [SystemLatencyOptimizer.thread, hthread]
  · exact hs.of_quiet htied rfl (.inl rfl)
  · exact absurd htied id

theorem kept_step {calls : List TimerCall} {a : Action} (hs : Kept available calls s)
    (h : step s a = some t) : Kept available (calls ++ a.call.toList) t := by
  have hquiet : a.call = none → Kept available calls t → Kept available (calls ++ a.call.toList) t := by
    intro hnone ht
    rwa [hnone, Option.toList_none, List.append_nil]
  have hcall : (∃ targetMs, a = .callStart targetMs) ∨ a = .callStop ∨ a = .destroy →
      Kept available calls t := by
    intro ha
    have htied := tied_step hs.tied h
    obtain ⟨hidle, rfl | ⟨hr, targetMs, rfl⟩ | ⟨hr, rfl⟩ | ⟨hr, destroying, rfl⟩⟩ := call_cases ha h
    all_goals exact hs.of_quiet htied rfl (.inl rfl)
  cases a with
  | callStart targetMs => exact hquiet rfl (hcall (.inl ⟨targetMs, rfl⟩))
  | callStop => exact hquiet rfl (hcall (.inr (.inl rfl)))
  | destroy => exact hquiet rfl (hcall (.inr (.inr rfl)))
  | owner => exact hquiet rfl (kept_owner hs h)
  | ownerRestore o =>
    have htied := tied_step hs.tied h
    have hsound := hs.tied
    have hpaired := hs.paired
    simp only [step, Option.ite_none_right_eq_some, Option.some.injEq] at h
    obtain ⟨ho, rfl⟩ := h
    simp only [Tied, ho] at hsound
    simp only [SystemLatencyOptimizer.thread, hsound, Option.none_or] at hpaired
    obtain ⟨sessions, hcalls⟩ := hpaired
    -- no timer is set any more, so the destructor's restore makes no call
    have hunset : s.timed.optimizer.timerSet = false := by
      rw [hs.timed, hcalls]
      exact runCalls_sessions_timerSet sessions
    exact hquiet rfl (hs.of_quiet htied (restoreTimerResolution_unset o hunset) (.inl rfl))
  | daemon w => exact kept_daemonAction (.inl rfl) hs h
  | newDaemon w => exact kept_daemonAction (.inr rfl) hs h

theorem kept_run (h : run step (.initial available) as = some s) :
    Kept available (as.filterMap Action.call) s := by
  refine run_history (H := fun before s => Kept available (before.filterMap Action.call) s)
    (fun before s a t hs hstep => ?_) kept_initial h
  have hlast : [a].filterMap Action.call = a.call.toList := by
    cases hcall : a.call <;> simp [hcall]
  rw [List.filterMap_append, hlast]
  exact kept_step hs hstep

/-- No interleaving terminates the process; an idle owner reads off the flag whether a daemon
runs; and the threads' calls on the timer are whole sessions, one thread after the other. -/
theorem daemon_safe (available : Bool) {as : List Action} {s : SystemLatencyOptimizer}
    (h : run step (.initial available) as = some s) :
    s.owner ≠ .terminated ∧ (s.owner = .idle → s.daemonRunning = s.daemonThread.isSome) ∧
      s.timed = runCalls available (as.filterMap Action.call) ∧
      (s.daemonThread = none → s.spawned = none → s.timed.optimizer.timerSet = false ∧
        ∃ sessions : List Session, as.filterMap Action.call = sessions.flatMap Session.calls) := by
  obtain ⟨htied, htimed, hpaired⟩ := kept_run h
  refine ⟨fun ho => by simp [Tied, ho] at htied, fun ho => ?_, htimed, fun hthread hspawned => ?_⟩
  · simp only [Tied, ho] at htied
    exact htied.1
  · simp only [SystemLatencyOptimizer.thread, hthread, hspawned, Option.none_or] at hpaired
    obtain ⟨sessions, hcalls⟩ := hpaired
    refine ⟨?_, sessions, hcalls⟩
    rw [htimed, hcalls]
    exact runCalls_sessions_timerSet sessions

/-- A daemon for 1 ms that falls back to timeBeginPeriod and is stopped by the destructor; the
thread sets the timer before it is assigned. -/
def startThenDestroy : List Action :=
  [.callStart 1, .owner, .owner, .newDaemon (.set 1 ⟨1, 0, true⟩), .owner, .daemon .iterate,
    .destroy, .owner, .daemon .leave, .daemon (.restore ⟨0, true⟩), .owner, .ownerRestore ⟨0, true⟩,
    .owner]

theorem daemon_safe_startThenDestroy : ∃ s, run step (.initial true) startThenDestroy = some s ∧
    s.owner ≠ .terminated ∧ s.timed.optimizer.timerSet = false := by
  obtain ⟨s, hs⟩ : ∃ s, run step (.initial true) startThenDestroy = some s := ⟨_, rfl⟩
  obtain ⟨hterm, -, -, hnone⟩ := daemon_safe true hs
  have hgone : s.daemonThread = none ∧ s.spawned = none := by
    cases hs
    exact ⟨rfl, rfl⟩
  exact ⟨s, hs, hterm, (hnone hgone.1 hgone.2).1⟩

/-- The targets and results of a run: 1 ms suits every fallback, and no restore is refused. -/
def Action.TakenBack : Action → Prop
  | .daemon (.set targetMs _) | .newDaemon (.set targetMs _) => targetMs < 2
  | .daemon (.restore o) | .newDaemon (.restore o) => o.ntStatus = 0 ∧ o.ended = true
  | _ => True

theorem session_takenBack {x : Session} (hall : ∀ a ∈ as, a.TakenBack)
    (hx : ∀ c ∈ x.calls, c ∈ as.filterMap Action.call) : x.TakenBack := by
  have hmade : ∀ c ∈ x.calls, ∃ a ∈ as, a.call = some c := by
    intro c hc
    exact List.mem_filterMap.mp (hx c hc)
  obtain ⟨a, ha, hset⟩ := hmade (.set x.targetMs x.setOutcome) (by simp [Session.calls])
  obtain ⟨b, hb, hrestore⟩ := hmade (.restore x.restoreOutcome) (by simp [Session.calls])
  have hperiod : x.targetMs < 2 := by
    have hok := hall a ha
    rcases a with _ | _ | _ | _ | _ | w | w <;> try cases hset
    all_goals
      cases w <;> cases hset
      exact hok
  have hback : x.restoreOutcome.ntStatus = 0 ∧ x.restoreOutcome.ended = true := by
    have hok := hall b hb
    rcases b with _ | _ | _ | _ | _ | w | w <;> try cases hrestore
    all_goals
      cases w <;> cases hrestore
      exact hok
  exact ⟨hperiod, hback.1, hback.2⟩

/-- Whenever no daemon thread is left, the system holds no request of the object. -/
theorem daemon_released (available : Bool) {as : List Action} {s : SystemLatencyOptimizer}
    (h : run step (.initial available) as = some s) (hall : ∀ a ∈ as, a.TakenBack)
    (hthread : s.daemonThread = none) (hspawned : s.spawned = none) : s.timed.ledger.Idle := by
  obtain ⟨htied, htimed, hpaired⟩ := kept_run h
  simp only [SystemLatencyOptimizer.thread, hthread, hspawned, Option.none_or] at hpaired
  obtain ⟨sessions, hcalls⟩ := hpaired
  rw [htimed, hcalls]
  refine runCalls_sessions_idle fun x hx => session_takenBack hall fun c hc => ?_
  rw [hcalls]
  exact List.mem_flatMap.mpr ⟨x, hx, hc⟩

theorem daemon_released_startThenDestroy : ∃ s, run step (.initial true) startThenDestroy = some s ∧
    s.timed.ledger.Idle := by
  obtain ⟨s, hs⟩ : ∃ s, run step (.initial true) startThenDestroy = some s := ⟨_, rfl⟩
  have hgone : s.daemonThread = none ∧ s.spawned = none := by
    cases hs
    exact ⟨rfl, rfl⟩
  refine ⟨s, hs, daemon_released true hs ?_ hgone.1 hgone.2⟩
  simp [startThenDestroy, Action.TakenBack]

/-- The steps a thread still makes once the flag is cleared. -/
def DaemonPc.remaining : DaemonPc → ℕ
  | setting _ => 3
  | looping => 2
  | restoring => 1
  | returned => 0

theorem daemonStep_cleared {pc pc' : DaemonPc} {w : DaemonStep} (h : daemonStep false pc w = some pc') :
    pc'.remaining + 1 = pc.remaining := by
  cases pc <;> cases w <;> simp [daemonStep] at h
  case setting.set => obtain ⟨_, rfl⟩ := h; rfl
  all_goals
    subst h
    rfl

/-- A thread that has not returned can go on. -/
theorem daemonStep_enabled {pc : DaemonPc} (h : 0 < pc.remaining) :
    ∃ w, (daemonStep false pc w).isSome = true := by
  cases pc with
  | setting targetMs => exact ⟨.set targetMs ⟨0, 0, false⟩, by simp [daemonStep]⟩
  | looping => exact ⟨.leave, rfl⟩
  | restoring => exact ⟨.restore ⟨0, false⟩, rfl⟩
  | returned => exact absurd h (Nat.lt_irrefl 0)

/-- While Stop waits, with what the thread has still to do after the steps taken. -/
structure Joining (destroying : Bool) (n : ℕ) (taken : List Action) (s : SystemLatencyOptimizer) : Prop where
  owner : s.owner = .stopJoin destroying
  cleared : s.daemonRunning = false
  thread : ∃ pc, s.daemonThread = some pc ∧ pc.remaining + taken.length = n

theorem joining_step {destroying : Bool} {n : ℕ} {taken : List Action} {w : DaemonStep}
    (hs : Joining destroying n taken s) (h : step s (.daemon w) = some t) :
    Joining destroying n (taken ++ [.daemon w]) t := by
  obtain ⟨ho, hr, pc, hpc, hn⟩ := hs
  simp only [step, ho, reduceCtorEq, if_false, hpc, Option.bind_some, hr] at h
  obtain ⟨pc', hstep, rfl⟩ := Option.map_eq_some_iff.mp h
  have hone := daemonStep_cleared hstep
  refine ⟨rfl, rfl, pc', rfl, ?_⟩
  rw [List.length_append, List.length_singleton]
  omega

/-- StopTimerDaemon comes back: once the flag is cleared the thread makes at most three more steps,
always has one until it returns, and the join then goes on. -/
theorem stop_joins (available : Bool) {as : List Action} {s : SystemLatencyOptimizer} {destroying : Bool}
    (h : run step (.initial available) as = some s) (hjoin : s.owner = .stopJoin destroying) :
    ∃ n ≤ 3, ∀ (bs : List Action) (t : SystemLatencyOptimizer), (∀ b ∈ bs, ∃ w, b = .daemon w) →
      run step s bs = some t → bs.length ≤ n ∧
        ((step t .owner).isSome = true ↔ bs.length = n) ∧
        (bs.length < n → ∃ w, (step t (.daemon w)).isSome = true) := by
  have htied := (kept_run h).tied
  simp only [Tied, hjoin] at htied
  obtain ⟨hflag, hsome, -⟩ := htied
  obtain ⟨pc, hpc⟩ := Option.isSome_iff_exists.mp hsome
  refine ⟨pc.remaining, by cases pc <;> simp [DaemonPc.remaining], fun bs t hdaemon hrun => ?_⟩
  have hjoining := run_history
    (H := fun taken s => (∀ b ∈ taken, ∃ w, b = .daemon w) → Joining destroying pc.remaining taken s)
    (fun taken s b t hs hstep hall => ?_) (fun _ => ⟨hjoin, hflag, pc, hpc, rfl⟩) hrun hdaemon
  · obtain ⟨ho, hr, pc', hpc', hn⟩ := hjoining
    refine ⟨by omega, ?_, fun hlt => ?_⟩
    · have henabled : (step t .owner).isSome = true ↔ pc'.remaining = 0 := by
        cases pc' <;> simp [step, ownerStep, ho, hpc', DaemonPc.remaining]
      rw [henabled]
      omega
    · obtain ⟨w, hw⟩ := daemonStep_enabled (show 0 < pc'.remaining by omega)
      exact ⟨w, by simpa [step, ho, hpc', hr] using hw⟩
  · obtain ⟨w, rfl⟩ := hall b (by simp)
    exact joining_step (hs fun b' hb' => hall b' (by simp [hb'])) hstep

theorem stop_joins_startThenDestroy : ∃ s, run step (.initial true) (startThenDestroy.take 8) = some s ∧
    ∃ n ≤ 3, ∀ (bs : List Action) (t : SystemLatencyOptimizer), (∀ b ∈ bs, ∃ w, b = .daemon w) →
      run step s bs = some t → bs.length ≤ n := by
  obtain ⟨s, hs, hjoin⟩ : ∃ s, run step (.initial true) (startThenDestroy.take 8) = some s ∧
      s.owner = .stopJoin true := ⟨_, rfl, rfl⟩
  obtain ⟨n, hn, hjoins⟩ := stop_joins true hs hjoin
  exact ⟨s, hs, n, hn, fun bs t hbs hrun => (hjoins bs t hbs hrun).1⟩

end Runs

end Disping.Timer.Daemon
