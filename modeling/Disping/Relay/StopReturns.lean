import Disping.Relay.Lifecycle

/-! # Stop comes back

While the owner waits for the thread, nothing but that thread can go on, it always can until it has
returned, and it does not take more than four accesses to do so. The relay may wait for a thread that is
still on its way to the socket, or one that has failed.
-/
namespace Disping.Relay

open Transition

variable {s t : UdpProxy}

/-- The accesses that a thread still makes at most, with the flag clear. -/
def WorkerPc.remaining : WorkerPc → ℕ
  | socket => 4
  | bind => 3
  | loop | clearing => 2
  | leaving => 1
  | returned => 0

theorem workerStep_lowers {pc : WorkerPc} {w : WorkerStep} {r : WorkerPc × Bool}
    (h : workerStep false pc w = some r) : r.1.remaining < pc.remaining ∧ r.2 = false := by
  cases pc <;> cases w <;> simp [workerStep] at h
  all_goals
    subst h
    exact ⟨by decide, rfl⟩

/-- A thread that has not returned can go on. -/
theorem workerStep_enabled {pc : WorkerPc} (h : pc ≠ .returned) :
    ∃ w, (workerStep false pc w).isSome = true := by
  cases pc with
  | socket => exact ⟨.socketOk, rfl⟩
  | bind => exact ⟨.bindOk, rfl⟩
  | loop => exact ⟨.leave, rfl⟩
  | clearing => exact ⟨.clear, rfl⟩
  | leaving => exact ⟨.ret, rfl⟩
  | returned => exact absurd rfl h

/-- A thread in the temporary is on its way into the member, and who joins has cleared the flag. -/
def Placed (s : UdpProxy) : Prop :=
  (s.spawned.isSome = true → s.owner = .startAssign ∨ s.owner = .terminated) ∧
    ∀ destroying, s.owner = .stopJoin destroying → s.running = false

theorem placed_initial : Placed UdpProxy.initial := ⟨by simp [UdpProxy.initial], by simp [UdpProxy.initial]⟩

theorem Placed.spawned_eq_none (hs : Placed s) (hassign : s.owner ≠ .startAssign) (hterm : s.owner ≠ .terminated) :
    s.spawned = none := by
  by_contra hsome
  rcases hs.1 (Option.isSome_iff_ne_none.mpr hsome) with h | h
  · exact hassign h
  · exact hterm h

/-- The owner never goes on to the join it has just left. -/
theorem afterStop_ne_stopJoin (destroying d : Bool) : afterStop destroying ≠ .stopJoin d := by
  cases destroying <;> simp [afterStop]

theorem placed_ownerStep (hs : Placed s) (h : ownerStep s = some t) : Placed t := by
  have hnone := hs.spawned_eq_none
  cases ho : s.owner with
  | stopStore destroying =>
    simp only [ownerStep, ho, Option.some.injEq] at h
    subst h
    exact ⟨by simp [hnone, ho], fun _ _ => rfl⟩
  | stopJoin destroying =>
    simp only [ownerStep, ho] at h
    split at h
    all_goals cases h
    all_goals exact ⟨by simp [hnone, ho], fun d hd => absurd hd (afterStop_ne_stopJoin destroying d)⟩
  | startStore =>
    simp only [ownerStep, ho, Option.some.injEq] at h
    subst h
    exact ⟨by simp [hnone, ho], by simp⟩
  | startSpawn =>
    simp only [ownerStep, ho, Option.some.injEq] at h
    subst h
    exact ⟨fun _ => .inl rfl, by simp⟩
  | startAssign =>
    simp only [ownerStep, ho] at h
    split at h
    all_goals cases h
    · exact ⟨fun _ => .inr rfl, by simp⟩
    · exact ⟨by simp, by simp⟩
  | destroyMember =>
    simp only [ownerStep, ho] at h
    split at h
    all_goals cases h
    · exact ⟨fun _ => .inr rfl, by simp⟩
    · exact ⟨by simp [hnone, ho], by simp⟩
  | idle => simp [ownerStep, ho] at h
  | destroyed => simp [ownerStep, ho] at h
  | terminated => simp [ownerStep, ho] at h

theorem placed_step {a : Action} (hs : Placed s) (h : step s a = some t) : Placed t := by
  have hcall : a = .callStart ∨ a = .callStop ∨ a = .destroy → Placed t := by
    intro ha
    obtain ⟨hidle, hcases⟩ := call_cases ha h
    have hnone : s.spawned = none := hs.spawned_eq_none (by simp [hidle]) (by simp [hidle])
    rcases hcases with ⟨rfl, -⟩ | ⟨rfl, -⟩ | ⟨rfl, -⟩ | ⟨destroying, rfl, -⟩
    · exact hs
    all_goals exact ⟨by simp [hnone], nofun⟩
  have hworker : ∀ w, a = .worker w ∨ a = .newWorker w → Placed t := by
    intro w ha
    obtain ⟨-, pc, ⟨-, -, rfl⟩ | ⟨-, hsome, rfl⟩⟩ := workerAction_cases ha h
    · exact ⟨hs.1, fun d hd => by simp [hs.2 d hd]⟩
    · exact ⟨fun _ => hs.1 hsome, fun d hd => by simp [hs.2 d hd]⟩
  cases a with
  | callStart => exact hcall (.inl rfl)
  | callStop => exact hcall (.inr (.inl rfl))
  | destroy => exact hcall (.inr (.inr rfl))
  | owner => exact placed_ownerStep hs h
  | worker w => exact hworker w (.inl rfl)
  | newWorker w => exact hworker w (.inr rfl)

/-- The owner waits in Stop. -/
structure Waiting (destroying : Bool) (s : UdpProxy) : Prop where
  owner : s.owner = .stopJoin destroying
  running : s.running = false
  spawned : s.spawned = none

/-- What the owner waits for. -/
def UdpProxy.remaining (s : UdpProxy) : ℕ := (s.workerThread.map WorkerPc.remaining).getD 0

theorem waiting_step {destroying : Bool} {a : Action} (hs : Waiting destroying s) (ha : a ≠ .owner)
    (h : step s a = some t) : Waiting destroying t ∧ t.remaining < s.remaining := by
  cases a with
  | owner => exact absurd rfl ha
  | worker w =>
    simp only [step, hs.owner, reduceCtorEq, if_false, hs.running] at h
    obtain ⟨pc, hpc, hmap⟩ := Option.bind_eq_some_iff.mp h
    obtain ⟨r, hr, rfl⟩ := Option.map_eq_some_iff.mp hmap
    obtain ⟨hlower, hflag⟩ := workerStep_lowers hr
    refine ⟨⟨rfl, hflag, hs.spawned⟩, ?_⟩
    simpa [UdpProxy.remaining, hpc] using hlower
  | newWorker w => simp [step, hs.owner, hs.spawned] at h
  | _ => simp [step, hs.owner] at h

/-- From every reachable state in which Stop waits: whatever the rest does, it takes at most four accesses, and
either the join is over or the thread can go on. -/
theorem stop_returns {as : List Action} {destroying : Bool} (h : run step UdpProxy.initial as = some s)
    (hjoin : s.owner = .stopJoin destroying) {bs : List Action} (hothers : ∀ b ∈ bs, b ≠ .owner)
    (hrun : run step s bs = some t) : bs.length ≤ 4 ∧
      (step t .owner = some { t with owner := afterStop destroying, workerThread := none } ∨
        ∃ w, (step t (.worker w)).isSome = true) := by
  have hplaced := run_invariant (fun _ _ _ hs _ => placed_step hs) along_true placed_initial h
  have hnone : s.spawned = none := hplaced.spawned_eq_none (by simp [hjoin]) (by simp [hjoin])
  have halong : Along step (fun _ b => b ≠ .owner) s bs := along_of_forall hothers
  obtain ⟨hwaiting, hbound⟩ := run_rank (fun _ _ _ => waiting_step) halong
    ⟨hjoin, hplaced.2 destroying hjoin, hnone⟩ hrun
  have hfour : s.remaining ≤ 4 := by
    unfold UdpProxy.remaining
    cases s.workerThread with
    | none => decide
    | some pc => cases pc <;> decide
  refine ⟨by omega, ?_⟩
  cases hthread : t.workerThread with
  | none => exact .inl (by simp [step, ownerStep, hwaiting.owner, hthread])
  | some pc =>
    by_cases hreturned : pc = .returned
    · exact .inl (by simp [step, ownerStep, hwaiting.owner, hthread, hreturned])
    · obtain ⟨w, hw⟩ := workerStep_enabled hreturned
      exact .inr ⟨w, by simpa [step, hwaiting.owner, hthread, hwaiting.running] using hw⟩

/-- Stop is called before the thread has made its socket. -/
theorem stop_returns_early : ∃ s, run step UdpProxy.initial
      [.callStart, .owner, .owner, .owner, .callStop, .owner] = some s ∧
    ∀ bs t, (∀ b ∈ bs, b ≠ .owner) → run step s bs = some t → bs.length ≤ 4 := by
  obtain ⟨s, hs, hjoin⟩ : ∃ s, run step UdpProxy.initial
      [.callStart, .owner, .owner, .owner, .callStop, .owner] = some s ∧ s.owner = .stopJoin false :=
    ⟨_, rfl, rfl⟩
  exact ⟨s, hs, fun bs t hothers hrun => (stop_returns hs hjoin hothers hrun).1⟩

end Disping.Relay
