import Disping.Transition.Runs

/-! # Lifecycle of the relay thread

The owner's calls and the worker's body, one atomic access at a time. The flag
m_running decides whether Stop joins, but the worker clears it on its own when
the socket or the bind fails; from then on the thread is joinable and nothing
joins it.
-/
namespace Disping.Relay
open Transition

/-- Where a worker thread is in its body. -/
inductive WorkerPc
  | socket | bind | loop
  /-- A call has failed; m_running.store(false) is next. -/
  | clearing
  | leaving | returned
deriving DecidableEq, Repr

/-- Where the owner is; `destroying` marks the Stop that the destructor calls. -/
inductive OwnerPc
  | idle
  | stopStore (destroying : Bool)
  | stopJoin (destroying : Bool)
  | startStore | startSpawn | startAssign
  | destroyMember
  | destroyed
  /-- std::terminate has been called. -/
  | terminated
deriving DecidableEq, Repr

structure UdpProxy where
  owner : OwnerPc
  running : Bool
  /-- m_workerThread, joinable when it holds a thread. -/
  workerThread : Option WorkerPc
  /-- The temporary that Start constructs and then assigns. -/
  spawned : Option WorkerPc
deriving DecidableEq, Repr

def UdpProxy.initial : UdpProxy := ⟨.idle, false, none, none⟩

inductive WorkerStep
  | socketOk | socketFails | bindOk | bindFails
  | clear
  /-- One iteration, the flag found set. -/
  | iterate
  /-- The flag found cleared. -/
  | leave
  | ret
deriving DecidableEq, Repr

inductive Action
  | callStart | callStop | destroy
  /-- The next access of the call that the owner is in. -/
  | owner
  /-- A step of the thread in m_workerThread, or of the one still in the temporary. -/
  | worker (w : WorkerStep)
  | newWorker (w : WorkerStep)
deriving DecidableEq, Repr

/-- The worker's body: its next place and the flag it leaves. -/
def workerStep (running : Bool) : WorkerPc → WorkerStep → Option (WorkerPc × Bool)
  | .socket, .socketOk => some (.bind, running)
  | .socket, .socketFails => some (.clearing, running)
  | .bind, .bindOk => some (.loop, running)
  | .bind, .bindFails => some (.clearing, running)
  | .clearing, .clear => some (.leaving, false)
  | .loop, .iterate => if running then some (.loop, running) else none
  | .loop, .leave => if running then none else some (.leaving, running)
  | .leaving, .ret => some (.returned, running)
  | _, _ => none

/-- Stop is left for the caller or, in the destructor, for the members. -/
def afterStop (destroying : Bool) : OwnerPc := if destroying then .destroyMember else .idle

/-- The owner's accesses inside Stop, Start and the member destructor. -/
def ownerStep (s : UdpProxy) : Option UdpProxy :=
  match s.owner with
  | .stopStore destroying => some { s with owner := .stopJoin destroying, running := false }
  | .stopJoin destroying =>
    match s.workerThread with
    | none => some { s with owner := afterStop destroying }
    | some .returned => some { s with owner := afterStop destroying, workerThread := none }
    | some _ => none
  | .startStore => some { s with owner := .startSpawn, running := true }
  | .startSpawn => some { s with owner := .startAssign, spawned := some .socket }
  | .startAssign =>
    if s.workerThread.isSome then some { s with owner := .terminated }
    else some { s with owner := .idle, workerThread := s.spawned, spawned := none }
  | .destroyMember =>
    if s.workerThread.isSome then some { s with owner := .terminated }
    else some { s with owner := .destroyed }
  | .idle | .destroyed | .terminated => none

def step (s : UdpProxy) : Action → Option UdpProxy
  | .callStart =>
    if s.owner = .idle then some (if s.running then s else { s with owner := .startStore }) else none
  | .callStop =>
    if s.owner = .idle then some (if s.running then { s with owner := .stopStore false } else s) else none
  | .destroy =>
    if s.owner = .idle then
      some (if s.running then { s with owner := .stopStore true } else { s with owner := .destroyMember })
    else none
  | .owner => ownerStep s
  | .worker w =>
    if s.owner = .terminated then none
    else s.workerThread.bind fun pc => (workerStep s.running pc w).map fun r =>
      { s with workerThread := some r.1, running := r.2 }
  | .newWorker w =>
    if s.owner = .terminated then none
    else s.spawned.bind fun pc => (workerStep s.running pc w).map fun r =>
      { s with spawned := some r.1, running := r.2 }

/-- A failed worker clears the flag only while the owner is already stopping it. -/
def ClearsInStop (s : UdpProxy) (a : Action) : Prop :=
  (a = .worker .clear ∨ a = .newWorker .clear) →
    ∃ destroying, s.owner = .stopStore destroying ∨ s.owner = .stopJoin destroying

/-- The flag and the joinability of the thread agree wherever the owner relies on it. -/
def Tied (s : UdpProxy) : Prop :=
  match s.owner with
  | .idle => s.running = s.workerThread.isSome ∧ s.spawned = none
  | .stopStore _ => s.spawned = none
  | .stopJoin _ => s.running = false ∧ s.spawned = none
  | .startStore => s.workerThread = none ∧ s.spawned = none
  | .startSpawn => s.running = true ∧ s.workerThread = none ∧ s.spawned = none
  | .startAssign => s.running = true ∧ s.workerThread = none ∧ s.spawned.isSome = true
  | .destroyMember | .destroyed => s.workerThread = none ∧ s.spawned = none
  | .terminated => False

/-- The flag is clear while a thread is joinable, or the owner acts on such a flag. -/
def Orphaned (s : UdpProxy) : Prop :=
  match s.owner with
  | .idle => s.running = false ∧ s.workerThread.isSome = true
  | .startStore | .startSpawn => s.workerThread.isSome = true
  | .startAssign => s.workerThread.isSome = true ∨ s.running = false ∧ s.spawned.isSome = true
  | .destroyMember => s.workerThread.isSome = true
  | .stopStore _ | .stopJoin _ | .destroyed => False
  | .terminated => True

theorem tied_initial : Tied UdpProxy.initial := by simp [Tied, UdpProxy.initial]

/-- The worker changes the flag by its failure exits only. -/
theorem workerStep_flag {running : Bool} {pc : WorkerPc} {w : WorkerStep} {r : WorkerPc × Bool}
    (h : workerStep running pc w = some r) : r.2 = if w = .clear then false else running := by
  cases pc <;> cases w <;> simp [workerStep] at h
  all_goals
    obtain ⟨-, rfl⟩ := h
    simp

section Steps
variable {s t : UdpProxy}

theorem tied_ownerStep (hs : Tied s) (h : ownerStep s = some t) : Tied t := by
  cases ho : s.owner with
  | idle => simp [ownerStep, ho] at h
  | stopStore destroying =>
    simp only [ownerStep, ho, Option.some.injEq] at h
    subst h
    simpa [Tied, ho] using hs
  | stopJoin destroying =>
    simp only [Tied, ho] at hs
    have hafter : ∀ u : UdpProxy, u.owner = afterStop destroying → u.running = false →
        u.workerThread = none → u.spawned = none → Tied u := by
      intro u hu hrun hthread hspawn
      cases destroying <;> simp_all [Tied, afterStop]
    cases hw : s.workerThread with
    | none =>
      simp only [ownerStep, ho, hw, Option.some.injEq] at h
      subst h
      exact hafter _ rfl hs.1 rfl hs.2
    | some pc =>
      cases pc with
      | returned =>
        simp only [ownerStep, ho, hw, Option.some.injEq] at h
        subst h
        exact hafter _ rfl hs.1 rfl hs.2
      | _ => simp [ownerStep, ho, hw] at h
  | startStore =>
    simp only [ownerStep, ho, Option.some.injEq] at h
    subst h
    simpa [Tied, ho] using hs
  | startSpawn =>
    simp only [ownerStep, ho, Option.some.injEq] at h
    subst h
    simp only [Tied, ho] at hs
    simp [Tied, hs.1, hs.2.1]
  | startAssign =>
    simp only [Tied, ho] at hs
    simp only [ownerStep, ho, hs.2.1, Option.isSome_none, Bool.false_eq_true, ↓reduceIte,
      Option.some.injEq] at h
    subst h
    simp [Tied, hs.1, hs.2.2]
  | destroyMember =>
    simp only [Tied, ho] at hs
    simp only [ownerStep, ho, hs.1, Option.isSome_none, Bool.false_eq_true, ↓reduceIte,
      Option.some.injEq] at h
    subst h
    simp [Tied, hs.2]
  | destroyed => simp [ownerStep, ho] at h
  | terminated => simp [ownerStep, ho] at h

/-- A call is started by an idle owner and reads the flag. -/
theorem call_cases {a : Action} (ha : a = .callStart ∨ a = .callStop ∨ a = .destroy)
    (h : step s a = some t) : s.owner = .idle ∧
      (t = s ∧ (a = .callStart ∧ s.running = true ∨ a = .callStop ∧ s.running = false) ∨
      t = { s with owner := .startStore } ∧ s.running = false ∨
      t = { s with owner := .destroyMember } ∧ s.running = false ∨
      ∃ destroying, t = { s with owner := .stopStore destroying } ∧ s.running = true) := by
  rcases ha with rfl | rfl | rfl <;> simp only [step] at h <;> split at h
  all_goals cases hr : s.running <;> simp_all

/-- A worker step changes the place of its thread, and the flag if it clears it. -/
theorem workerAction_cases {a : Action} {w : WorkerStep} (ha : a = .worker w ∨ a = .newWorker w)
    (h : step s a = some t) : s.owner ≠ .terminated ∧ ∃ pc : WorkerPc,
      (a = .worker w ∧ s.workerThread.isSome = true ∧
        t = { s with workerThread := some pc, running := if w = .clear then false else s.running } ∨
      a = .newWorker w ∧ s.spawned.isSome = true ∧
        t = { s with spawned := some pc, running := if w = .clear then false else s.running }) := by
  rcases ha with rfl | rfl
  · simp only [step] at h
    split at h
    next => cases h
    next hterm =>
      obtain ⟨pc, hpc, hmap⟩ := Option.bind_eq_some_iff.mp h
      obtain ⟨r, hr, rfl⟩ := Option.map_eq_some_iff.mp hmap
      exact ⟨hterm, r.1, .inl ⟨rfl, by simp [hpc], by rw [workerStep_flag hr]⟩⟩
  · simp only [step] at h
    split at h
    next => cases h
    next hterm =>
      obtain ⟨pc, hpc, hmap⟩ := Option.bind_eq_some_iff.mp h
      obtain ⟨r, hr, rfl⟩ := Option.map_eq_some_iff.mp hmap
      exact ⟨hterm, r.1, .inr ⟨rfl, by simp [hpc], by rw [workerStep_flag hr]⟩⟩

theorem tied_step {a : Action} (hs : Tied s) (hok : ClearsInStop s a) (h : step s a = some t) :
    Tied t := by
  have hcall : a = .callStart ∨ a = .callStop ∨ a = .destroy → Tied t := by
    intro ha
    obtain ⟨hidle, hcases⟩ := call_cases ha h
    simp only [Tied, hidle] at hs
    rcases hcases with ⟨rfl, _⟩ | ⟨rfl, hr⟩ | ⟨rfl, hr⟩ | ⟨destroying, rfl, hr⟩
    · simpa [Tied, hidle] using hs
    · simpa [Tied, hs.2, hr] using hs.1
    · simpa [Tied, hs.2, hr] using hs.1
    · simpa [Tied] using hs.2
  have hworker : ∀ w, a = .worker w ∨ a = .newWorker w → Tied t := by
    intro w ha
    obtain ⟨hterm, pc, ⟨rfl, hsome, rfl⟩ | ⟨rfl, hsome, rfl⟩⟩ := workerAction_cases ha h
    · by_cases hw : w = .clear
      · obtain ⟨destroying, ho | ho⟩ := hok (.inl (by rw [hw]))
        · simpa [Tied, ho] using hs
        · simp only [Tied, ho] at hs
          simpa [Tied, ho, hw] using hs.2
      · cases ho : s.owner <;> simp_all [Tied]
    · by_cases hw : w = .clear
      · obtain ⟨destroying, ho | ho⟩ := hok (.inr (by rw [hw]))
        · simp_all [Tied]
        · simp_all [Tied]
      · cases ho : s.owner <;> simp_all [Tied]
  cases a with
  | callStart => exact hcall (.inl rfl)
  | callStop => exact hcall (.inr (.inl rfl))
  | destroy => exact hcall (.inr (.inr rfl))
  | owner => exact tied_ownerStep hs h
  | worker w => exact hworker w (.inl rfl)
  | newWorker w => exact hworker w (.inr rfl)

/-- A failure exit outside Stop orphans the thread. -/
theorem orphaned_of_clear {a : Action} (hs : Tied s) (hok : ¬ ClearsInStop s a)
    (h : step s a = some t) : Orphaned t := by
  simp only [ClearsInStop, Classical.not_imp, not_exists, not_or] at hok
  obtain ⟨ha, hout⟩ := hok
  obtain ⟨hterm, pc, ⟨rfl, hsome, rfl⟩ | ⟨rfl, hsome, rfl⟩⟩ := workerAction_cases ha h
  · cases ho : s.owner <;> simp_all [Tied, Orphaned]
  · cases ho : s.owner <;> simp_all [Tied, Orphaned]

theorem orphaned_ownerStep (hs : Orphaned s) (h : ownerStep s = some t) : Orphaned t := by
  cases ho : s.owner with
  | idle => simp [ownerStep, ho] at h
  | stopStore destroying => simp [Orphaned, ho] at hs
  | stopJoin destroying => simp [Orphaned, ho] at hs
  | startStore =>
    simp only [ownerStep, ho, Option.some.injEq] at h
    subst h
    simpa [Orphaned, ho] using hs
  | startSpawn =>
    simp only [ownerStep, ho, Option.some.injEq] at h
    subst h
    simp only [Orphaned, ho] at hs
    simp [Orphaned, hs]
  | startAssign =>
    simp only [ownerStep, ho] at h
    split at h
    next =>
      cases h
      simp [Orphaned]
    next hnone =>
      cases h
      simp only [Orphaned, ho] at hs
      exact hs.resolve_left hnone
  | destroyMember =>
    simp only [Orphaned, ho] at hs
    simp only [ownerStep, ho, hs, ↓reduceIte, Option.some.injEq] at h
    subst h
    simp [Orphaned]
  | destroyed => simp [Orphaned, ho] at hs
  | terminated => simp [ownerStep, ho] at h

/-- An orphaned thread stays one: Stop does not join it, Start and the destructor terminate. -/
theorem orphaned_step {a : Action} (hs : Orphaned s) (h : step s a = some t) : Orphaned t := by
  have hcall : a = .callStart ∨ a = .callStop ∨ a = .destroy → Orphaned t := by
    intro ha
    obtain ⟨hidle, hcases⟩ := call_cases ha h
    simp only [Orphaned, hidle] at hs
    rcases hcases with ⟨rfl, _⟩ | ⟨rfl, hr⟩ | ⟨rfl, hr⟩ | ⟨destroying, rfl, hr⟩
    · simpa [Orphaned, hidle] using hs
    · simpa [Orphaned] using hs.2
    · simpa [Orphaned] using hs.2
    · exact absurd (hs.1.symm.trans hr) Bool.false_ne_true
  have hworker : ∀ w, a = .worker w ∨ a = .newWorker w → Orphaned t := by
    intro w ha
    obtain ⟨hterm, pc, ⟨rfl, hsome, rfl⟩ | ⟨rfl, hsome, rfl⟩⟩ := workerAction_cases ha h
    · cases ho : s.owner <;> simp_all [Orphaned]
    · cases ho : s.owner <;> simp_all [Orphaned]
      exact hs.imp_right fun hr _ => hr
  cases a with
  | callStart => exact hcall (.inl rfl)
  | callStop => exact hcall (.inr (.inl rfl))
  | destroy => exact hcall (.inr (.inr rfl))
  | owner =>
    exact orphaned_ownerStep hs h
  | worker w => exact hworker w (.inl rfl)
  | newWorker w => exact hworker w (.inr rfl)

end Steps

/-- No terminate while workers clear the flag inside Stop only, and no clean end otherwise. -/
theorem lifecycle_safe {as : List Action} {t : UdpProxy} (h : run step UdpProxy.initial as = some t) :
    (Along step ClearsInStop UdpProxy.initial as → t.owner ≠ .terminated) ∧
      (t.owner = .destroyed → Along step ClearsInStop UdpProxy.initial as) := by
  refine ⟨fun hok => ?_, fun hend => ?_⟩
  · have htied := run_invariant (fun _ _ _ => tied_step) hok tied_initial h
    intro hterm
    simp [Tied, hterm] at htied
  · have htrap := run_trap (fun _ _ _ => tied_step) (fun _ _ _ => orphaned_of_clear)
      (fun _ _ _ => orphaned_step) tied_initial h
    refine htrap.resolve_right fun horphan => ?_
    simp [Orphaned, hend] at horphan

/-- A relay started, stopped while it runs, and destroyed. -/
def startStopDestroy : List Action :=
  [.callStart, .owner, .owner, .owner, .worker .socketOk, .worker .bindOk, .worker .iterate,
    .callStop, .owner, .worker .leave, .worker .ret, .owner, .destroy, .owner]

theorem lifecycle_safe_startStopDestroy :
    Along step ClearsInStop UdpProxy.initial startStopDestroy := by
  obtain ⟨t, ht, hend⟩ : ∃ t, run step UdpProxy.initial startStopDestroy = some t ∧ t.owner = .destroyed :=
    ⟨_, rfl, rfl⟩
  exact (lifecycle_safe ht).2 hend

/-- The port is busy, and the relay is started again. -/
theorem not_lifecycle_safe_busyPort : ¬ ∀ (as : List Action) (t : UdpProxy),
    run step UdpProxy.initial as = some t → t.owner ≠ .terminated := by
  intro h
  refine h [.callStart, .owner, .owner, .owner, .worker .socketOk, .worker .bindFails, .worker .clear,
    .worker .ret, .callStart, .owner, .owner, .owner] _ rfl ?_
  decide

end Disping.Relay
