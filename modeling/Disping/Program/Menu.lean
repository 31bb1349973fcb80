import Disping.Program.Status
import Disping.Transition.Runs

/-! # The keys of the menu

The loop of main takes one key after the other. What a key does depends on the screen it is typed
at; the machine at the end is the one that the chosen operations make.
-/
namespace Disping.Program

open Hive Host Tweaks Rollback Links Shield Transition

/-- What the program waits for. -/
inductive Screen
  | menu
  /-- `Apply to active physical adapters? (y/n)` -/
  | confirmMtu
  /-- `Apply fastest DNS resolver to your adapter? (y/n)` -/
  | confirmDns
  /-- `Are you sure you want to restore factory Windows defaults? (y/n)` -/
  | confirmRestore
  /-- the ports and the host of the relay -/
  | relayPrompts
  /-- `Relay running! Press any key to stop...` -/
  | relayRunning
  /-- `Press any key to return to menu...` -/
  | anyKey
  | left
deriving DecidableEq

inductive Input
  | key (c : Char)
  /-- The prompts of the relay are answered and Start has returned, or a port is no number and the
  exception ends the program. -/
  | relay (started : Option Bool)
deriving DecidableEq

def Screen.next : Screen → Input → Option Screen
  | menu, .key c =>
    match c with
    | '!' | '1' | '2' | '3' | '4' | '7' | '8' | 'b' | 'B' | 't' | 'T' | 'c' | 'C' | 'v' | 'V'
    | 'w' | 'W' | 'f' | 'F' | 'h' | 'H' | 's' | 'S' => some anyKey
    | '5' => some confirmMtu
    | '6' => some confirmDns
    | '9' => some relayPrompts
    | 'r' | 'R' => some confirmRestore
    | 'q' | 'Q' => some left
    | _ => some menu
  | confirmMtu, .key _ | confirmDns, .key _ | confirmRestore, .key _ | relayRunning, .key _ => some anyKey
  | anyKey, .key _ => some menu
  | relayPrompts, .relay none => some left
  | relayPrompts, .relay (some started) => some (if started then relayRunning else anyKey)
  | menu, .relay _ | confirmMtu, .relay _ | confirmDns, .relay _ | confirmRestore, .relay _
  | relayRunning, .relay _ | anyKey, .relay _ | relayPrompts, .key _ | left, _ => none

/-- The operation behind a question. -/
def Screen.asks : Screen → Option Operation
  | confirmMtu => some (.mtu "1.1.1.1")
  | confirmDns => some .dns
  | confirmRestore => some .restore
  | menu | relayPrompts | relayRunning | anyKey | left => none

/-- The operation that an input chooses. -/
def Screen.operation (isHighRam : Bool) : Screen → Input → Option Operation
  | menu, .key c =>
    match c with
    | '!' => some (.extremeBoost isHighRam)
    | '1' => some .networkTweaks
    | '2' => some .adapterTuning
    | '3' => some .multimediaProfile
    | 'b' | 'B' => some .backup
    | 'c' | 'C' => some .comparison
    | 'w' | 'W' => some .wifiEngine
    | _ => none
  | s, .key c => if c = 'y' ∨ c = 'Y' then s.asks else none
  | _, .relay _ => none

/-- The screen of the menu shows the rights, the status line and the shield. -/
def displayMenu (ans : Answers) : Win Unit := do
  let _ ← isRunningAsAdmin
  let _ ← areTweaksApplied
  let _ ← query fun n => isVpnOrDpiBypassActive (ans.view n)
  pure ()

/-- What is read before a choice is carried out or asked about. -/
def Screen.preview (ans : Answers) : Screen → Input → Win Unit
  | menu, .key c =>
    match c with
    | '2' => do
      let _ ← getActiveAdapters ans
      pure ()
    | '5' => do
      let _ ← discoverOptimalMtu (probeHost ans "1.1.1.1")
      pure ()
    | '6' => do
      let _ ← benchmarkDnsProviders ans 3
      pure ()
    | 's' | 'S' => displayMenu ans
    | _ => pure ()
  | _, _ => pure ()

def carryOut (ans : Answers) : Option Operation → Win Unit
  | some op => op.run ans
  | none => pure ()

/-- What happens between an input and the next one. The healing of the keys 4 and f works on Steam's files and
on the user's hive and has its own model in Healing; the name that key 4 asks for is not read. -/
def Screen.respond (ans : Answers) (isHighRam : Bool) (s : Screen) (i : Input) : Win Unit := do
  let _ ← s.preview ans i
  let _ ← carryOut ans (s.operation isHighRam i)
  if s.next i = some menu then displayMenu ans else pure ()

structure Main where
  screen : Screen
  world : World

def Main.step (env : Environment) (ans : Answers) (isHighRam : Bool) (m : Main) (i : Input) : Option Main :=
  (m.screen.next i).map fun s => ⟨s, (m.screen.respond ans isHighRam i env m.world).2⟩

/-- The operations that the inputs choose. -/
def Screen.session (isHighRam : Bool) : Screen → List Input → List Operation
  | _, [] => []
  | s, i :: is =>
    (s.operation isHighRam i).toList ++
      match s.next i with
      | some s' => s'.session isHighRam is
      | none => []

variable {env : Environment} {ans : Answers} {isHighRam : Bool} {m m' : Main} {s : Screen} {i : Input}
  {is : List Input} {w : World}

section Reading
variable {I : World → Prop} (hI : Numberless I)
include hI

theorem displayMenu_keeps : Keeps env I (displayMenu ans) := by
  refine Keeps.bind (fun w hw => ⟨trivial, hw⟩) fun _ => ?_
  refine Keeps.bind (Keeps.bind (getDword_keeps hI _ _) fun _ => Keeps.pure _) fun _ => ?_
  exact Keeps.bind (query_keeps hI _) fun _ => Keeps.pure _

theorem preview_keeps (s : Screen) (i : Input) : Keeps env I (s.preview ans i) := by
  unfold Screen.preview
  split
  · split
    · exact Keeps.bind (getActiveAdapters_keeps hI) fun _ => Keeps.pure _
    · exact Keeps.bind (discoverOptimalMtu_ensures hI _).keeps fun _ => Keeps.pure _
    · exact Keeps.bind (benchmarkDnsProviders_keeps hI 3) fun _ => Keeps.pure _
    · exact displayMenu_keeps hI
    · exact displayMenu_keeps hI
    · exact Keeps.pure _
  · exact Keeps.pure _

/-- An input that chooses nothing. -/
theorem respond_keeps (h : s.operation isHighRam i = none) : Keeps env I (s.respond ans isHighRam i) := by
  refine Keeps.bind (preview_keeps hI s i) fun _ => ?_
  refine Keeps.bind ?_ fun _ => Ensures.ite (fun _ => displayMenu_keeps hI) fun _ => Keeps.pure _
  rw [h]
  exact Keeps.pure _

end Reading

/-- What an input makes of the registry. -/
theorem respond_registry (w : World) : (s.respond ans isHighRam i env w).2.registry =
    (carryOut ans (s.operation isHighRam i) env (s.preview ans i env w).2).2.registry :=
  registry_of_over (fun _ => Ensures.ite (P := fun _ => True)
    (fun _ => displayMenu_keeps over_numberless) fun _ => Keeps.pure _) _

theorem respond_effect (admin : env.admin = true) (ok : env.AllSucceed) (ans : Answers) (isHighRam : Bool)
    (s : Screen) (i : Input) (w : World) : SameLists w.registry (s.respond ans isHighRam i env w).2.registry ∧
      ∀ loc : Location, ¬ path qosRoot <+: loc.1 →
        (s.respond ans isHighRam i env w).2.registry.values loc =
          ((s.operation isHighRam i).bind fun op => op.effectAt w.registry loc).getD
            (w.registry.values loc) := by
  have hpreview : (s.preview ans i env w).2.registry = w.registry :=
    registry_of_over (fun _ => preview_keeps over_numberless s i) w
  rw [respond_registry]
  cases s.operation isHighRam i with
  | none =>
    have hsame : (carryOut ans none env (s.preview ans i env w).2).2.registry = w.registry := hpreview
    rw [hsame]
    exact ⟨SameLists.refl _, fun loc _ => rfl⟩
  | some op =>
    have heffect := op.run_effect admin ok ans (s.preview ans i env w).2
    rw [hpreview] at heffect
    exact heffect

/-- The keys of a session, read off a registry with the same lists of keys. -/
theorem SameLists.typed (admin : env.admin = true) (ok : env.AllSucceed) {r₀ : Registry} {loc : Location}
    (hloc : ¬ path qosRoot <+: loc.1) {is : List Input} {m m' : Main}
    (hlists : SameLists r₀ m.world.registry) (h : run (Main.step env ans isHighRam) m is = some m') :
    m'.world.registry.values loc =
      (((m.screen.session isHighRam is).filterMap fun op => op.effectAt r₀ loc).getLast?).getD
        (m.world.registry.values loc) := by
  induction is generalizing m with
  | nil =>
    cases h
    rfl
  | cons i is ih =>
    obtain ⟨u, hu, hrun⟩ := run_cons h
    obtain ⟨s, hs, rfl⟩ := Option.map_eq_some_iff.mp hu
    obtain ⟨hkept, hvalue⟩ := respond_effect admin ok ans isHighRam m.screen i m.world
    have hrest := ih (hlists.trans hkept) hrun
    rw [hvalue loc hloc] at hrest
    refine hrest.trans ?_
    rw [Screen.session, hs]
    cases m.screen.operation isHighRam i with
    | none => rfl
    | some op =>
      rw [Option.bind_some, hlists.effectAt]
      simp only [Option.toList_some, List.singleton_append]
      cases heffect : op.effectAt r₀ loc with
      | none => simp only [List.filterMap_cons, heffect, Option.getD_none]
      | some x => simp only [List.filterMap_cons, heffect, List.getLast?_cons, Option.getD_some]

/-- Whatever is typed: at every place outside of the policies the last chosen operation that concerns
it decides. -/
theorem menu_values (admin : env.admin = true) (ok : env.AllSucceed) (ans : Answers) (isHighRam : Bool)
    (w : World) (h : run (Main.step env ans isHighRam) ⟨.menu, w⟩ is = some m') (loc : Location)
    (hloc : ¬ path qosRoot <+: loc.1) :
    m'.world.registry.values loc =
      (((Screen.menu.session isHighRam is).filterMap fun op => op.effectAt w.registry loc).getLast?).getD
        (w.registry.values loc) :=
  SameLists.typed admin ok hloc (SameLists.refl w.registry) h

section Quiet

/-- The keys that choose an operation, at some screen, or boost a process or heal Steam. -/
def choosing : List Char :=
  ['!', '1', '2', '3', '4', 'b', 'B', 'c', 'C', 'f', 'F', 'w', 'W', 'y', 'Y']

theorem operation_quiet (h : ∀ c ∈ choosing, i ≠ .key c) : s.operation isHighRam i = none := by
  unfold Screen.operation
  split
  · split
    all_goals first
      | rfl
      | exact absurd rfl (h _ (by simp [choosing]))
  · rename_i s c _
    have hno : ¬ (c = 'y' ∨ c = 'Y') := by
      rintro (rfl | rfl)
      · exact h _ (by simp [choosing]) rfl
      · exact h _ (by simp [choosing]) rfl
    rw [if_neg hno]
  · rfl

/-- Who types none of these keys changes nothing, whatever the calls answer: the screens only read. -/
theorem menu_reads {is : List Input} {m m' : Main} (h : run (Main.step env ans isHighRam) m is = some m')
    (hquiet : ∀ i ∈ is, ∀ c ∈ choosing, i ≠ .key c) :
    m'.world = { m.world with calls := m'.world.calls } := by
  have hkeep : ∀ (u : Main) (i : Input) (u' : Main), { u.world with calls := 0 } = { m.world with calls := 0 } →
      (∀ c ∈ choosing, i ≠ .key c) → Main.step env ans isHighRam u i = some u' →
      { u'.world with calls := 0 } = { m.world with calls := 0 } := by
    intro u i u' hu hi hstep
    obtain ⟨s, -, rfl⟩ := Option.map_eq_some_iff.mp hstep
    have hkeeps : Keeps env (fun v : World => { v with calls := 0 } = { m.world with calls := 0 })
        (u.screen.respond ans isHighRam i) := respond_keeps (fun _ _ hv => hv) (operation_quiet hi)
    exact (hkeeps u.world hu).2
  have hsame : { m'.world with calls := 0 } = { m.world with calls := 0 } :=
    run_invariant (I := fun u => { u.world with calls := 0 } = { m.world with calls := 0 }) hkeep
      (along_of_forall hquiet) rfl h
  exact congrArg (fun v : World => { v with calls := m'.world.calls }) hsame

end Quiet

section Confirmed

/-- The operations that the inputs choose, each with the number of inputs before its own. -/
def Screen.choices (isHighRam : Bool) (n : ℕ) (s : Screen) : List Input → List (ℕ × Operation)
  | [] => []
  | i :: is =>
    ((s.operation isHighRam i).map (n, ·)).toList ++
      match s.next i with
      | some s' => s'.choices isHighRam (n + 1) is
      | none => []

/-- Right before the input stands the key that leads to the question about the operation, and the input
is a yes. -/
def Confirmed (op : Operation) (is : List Input) (n : ℕ) : Prop :=
  ∃ (k : ℕ) (c d : Char) (s : Screen), n = k + 1 ∧ is[k]? = some (.key c) ∧ is[k + 1]? = some (.key d) ∧
    Screen.menu.next (.key c) = some s ∧ s.asks = some op ∧ (d = 'y' ∨ d = 'Y')

variable {op : Operation} {t : Screen}

theorem Screen.choices_snd (is : List Input) (n : ℕ) (s : Screen) :
    (s.choices isHighRam n is).map Prod.snd = s.session isHighRam is := by
  induction is generalizing n s with
  | nil => rfl
  | cons i is ih =>
    rw [choices, session, List.map_append]
    cases s.operation isHighRam i <;> cases s.next i <;> simp [ih]

/-- Questions are asked from the menu. -/
theorem asks_next (h : s.next i = some t) (hasks : t.asks = some op) : s = .menu ∧ ∃ c, i = .key c := by
  have hasking : t = .confirmMtu ∨ t = .confirmDns ∨ t = .confirmRestore := by
    cases t with
    | confirmMtu => exact Or.inl rfl
    | confirmDns => exact Or.inr (Or.inl rfl)
    | confirmRestore => exact Or.inr (Or.inr rfl)
    | _ => cases hasks
  cases s with
  | menu =>
    cases i with
    | key c => exact ⟨rfl, c, rfl⟩
    | relay started => cases h
  | relayPrompts =>
    rcases i with c | _ | started
    · cases h
    · cases h
      simp at hasking
    · cases started <;> cases h <;> simp at hasking
  | left => cases h
  | _ =>
    cases i with
    | key c =>
      cases h
      simp at hasking
    | relay started => cases h

/-- What a question is about is not chosen at the menu itself. -/
theorem operation_asked (h : s.operation isHighRam i = some op) (hasks : t.asks = some op) :
    s.asks = some op ∧ ∃ d, i = .key d ∧ (d = 'y' ∨ d = 'Y') := by
  have hasked : op = .mtu "1.1.1.1" ∨ op = .dns ∨ op = .restore := by
    cases t <;> cases hasks <;> simp
  unfold Screen.operation at h
  split at h
  · split at h <;> cases h <;> simp at hasked
  · rename_i s c _
    rw [Option.ite_none_right_eq_some] at h
    exact ⟨h.2, c, rfl, h.1⟩
  · cases h

theorem choices_asked {is : List Input} {s : Screen} {n m : ℕ} (h : (m, op) ∈ s.choices isHighRam n is)
    (hasks : t.asks = some op) : ∃ k, m = n + k ∧ (Confirmed op is k ∨
      (k = 0 ∧ s.asks = some op ∧ ∃ d, is[0]? = some (.key d) ∧ (d = 'y' ∨ d = 'Y'))) := by
  induction is generalizing s n with
  | nil => cases h
  | cons i is ih =>
    rcases List.mem_append.mp h with hchosen | hlater
    · obtain ⟨op', hop, heq⟩ := Option.map_eq_some_iff.mp (Option.mem_toList.mp hchosen)
      cases heq
      obtain ⟨hasked, d, rfl, hd⟩ := operation_asked hop hasks
      exact ⟨0, rfl, .inr ⟨rfl, hasked, d, rfl, hd⟩⟩
    · cases hnext : s.next i with
      | none =>
        rw [hnext] at hlater
        cases hlater
      | some u =>
        rw [hnext] at hlater
        obtain ⟨k, rfl, hcase⟩ := ih hlater
        refine ⟨k + 1, by omega, .inl ?_⟩
        rcases hcase with ⟨k, c, d, s', rfl, hc, hd, hmenu, hasked, hyes⟩ | ⟨rfl, hasked, d, hd, hyes⟩
        · exact ⟨k + 1, c, d, s', rfl, hc, hd, hmenu, hasked, hyes⟩
        · obtain ⟨rfl, c, rfl⟩ := asks_next hnext hasked
          exact ⟨0, c, d, u, rfl, rfl, hd, hnext, hasked, hyes⟩

/-- The MTU, the resolvers and the defaults are set after a question and a yes only, each time. -/
theorem session_confirmed (is : List Input) (isHighRam : Bool)
    (hop : op ∈ [Operation.mtu "1.1.1.1", .dns, .restore]) :
    (∀ n, (n, op) ∈ Screen.menu.choices isHighRam 0 is → Confirmed op is n) ∧
      (op ∈ Screen.menu.session isHighRam is → ∃ n, (n, op) ∈ Screen.menu.choices isHighRam 0 is) := by
  have hasks : ∃ t : Screen, t.asks = some op := by
    simp only [List.mem_cons, List.not_mem_nil, or_false] at hop
    rcases hop with rfl | rfl | rfl
    · exact ⟨.confirmMtu, rfl⟩
    · exact ⟨.confirmDns, rfl⟩
    · exact ⟨.confirmRestore, rfl⟩
  obtain ⟨t, ht⟩ := hasks
  constructor
  · intro n h
    obtain ⟨k, rfl, hconfirmed | ⟨-, hnone, -⟩⟩ := choices_asked h ht
    · rwa [Nat.zero_add]
    · cases hnone
  · intro h
    rw [← Screen.choices_snd is 0, List.mem_map] at h
    obtain ⟨⟨n, op'⟩, hmem, rfl⟩ := h
    exact ⟨n, hmem⟩

end Confirmed

/-- The tweaks, a question that is answered with another key, and the defaults. -/
def tweakThenRestore : List Input :=
  [.key '1', .key ' ', .key 'r', .key 'n', .key ' ', .key 'R', .key 'Y', .key ' ', .key 'q']

theorem menu_values_tweakThenRestore : ∃ m,
    run (Main.step adminEnvironment noAnswers true) ⟨.menu, worldWith .empty⟩ tweakThenRestore = some m ∧
      m.world.registry.values (path profileKey, fold "NoLazyMode") = some (regDword 1) := by
  obtain ⟨m, hm⟩ : ∃ m, run (Main.step adminEnvironment noAnswers true) ⟨.menu, worldWith .empty⟩
      tweakThenRestore = some m := ⟨_, rfl⟩
  refine ⟨m, hm, ?_⟩
  rw [menu_values rfl (fun _ => rfl) noAnswers true _ hm _ profileKey_beside.2.2]
  decide +kernel

theorem menu_reads_restoreRefused : ∃ m,
    run (Main.step adminEnvironment noAnswers true) ⟨.menu, worldWith .empty⟩ [.key 'r', .key 'n', .key ' '] =
        some m ∧ m.world = { worldWith .empty with calls := m.world.calls } := by
  obtain ⟨m, hm⟩ : ∃ m, run (Main.step adminEnvironment noAnswers true) ⟨.menu, worldWith .empty⟩
      [.key 'r', .key 'n', .key ' '] = some m := ⟨_, rfl⟩
  exact ⟨m, hm, menu_reads hm (by simp [choosing])⟩

theorem session_confirmed_tweakThenRestore : Confirmed .restore tweakThenRestore 6 :=
  (session_confirmed tweakThenRestore true (by simp)).1 6 (by decide)

end Disping.Program
