import Disping.Host.World
import Disping.Relay.Lifecycle
import Disping.Text.Integers

/-! # The ports typed at the relay menu

The menu converts each line by `std::stoi` and narrows the value to 16 bits. Nothing looks at the value
in between, and nothing catches what the conversion throws.
-/
namespace Disping.Relay

open Transition Text Host

/-- The arguments of Start. -/
structure StartArguments where
  listenPort : BitVec 16
  remoteHost : String
  remotePort : BitVec 16
deriving DecidableEq

/-- `static_cast<uint16_t>(str.empty() ? 27015 : std::stoi(str))` -/
def portOf (str : String) : Except ConversionError (BitVec 16) :=
  if str = "" then .ok 27015 else (stoi str.toList).map (BitVec.ofInt 16)

/-- The lines of the three prompts, read in this order. -/
def startArguments (lportStr rhost rportStr : String) : Except ConversionError StartArguments := do
  let lport ← portOf lportStr
  let rport ← portOf rportStr
  .ok ⟨lport, if rhost = "" then "1.1.1.1" else rhost, rport⟩

/-- Start with its result; none where it assigns to a thread that is still joinable. -/
def start (proxy : UdpProxy) (args : StartArguments) : Option (OperationResult × UdpProxy) :=
  if proxy.running then
    some ({ success := false, message := "UDP Proxy is already active." }, proxy)
  else if proxy.workerThread.isSome then none
  else
    some ({
      success := true
      message := "Started UDP Fast Relay on port " ++ toString args.listenPort.toNat ++ " -> " ++
        args.remoteHost ++ ":" ++ toString args.remotePort.toNat },
      { proxy with running := true, workerThread := some .socket })

/-- What the menu action comes to. -/
inductive ActionEnd
  /-- An exception leaves main. -/
  | uncaught (e : ConversionError)
  /-- std::terminate, called by the assignment in Start. -/
  | terminated
  /-- Start has returned, and the action goes back to the menu. -/
  | returned (args : StartArguments) (result : OperationResult) (proxy : UdpProxy)

def relayAction (proxy : UdpProxy) (lportStr rhost rportStr : String) : ActionEnd :=
  match startArguments lportStr rhost rportStr with
  | .error e => .uncaught e
  | .ok args =>
    match start proxy args with
    | none => .terminated
    | some (result, proxy') => .returned args result proxy'

/-- A number from 1 to 65535 in decimal digits. -/
structure PortNumber (str : String) (n : ℕ) : Prop where
  decimal : Decimal str.toList
  value : Nat.ofDigitChars 10 str.toList 0 = n
  positive : 1 ≤ n
  bounded : n ≤ 65535

/-- A relay runs with these arguments. -/
def ActionEnd.Starts (e : ActionEnd) (args : StartArguments) : Prop :=
  ∃ result proxy, e = .returned args result proxy ∧ result.success = true

/-- The menu is back without a new relay. -/
def ActionEnd.Refuses (e : ActionEnd) : Prop :=
  ∃ args result proxy, e = .returned args result proxy ∧ result.success = false

/-- What a line at a prompt is to lead to: the default, the port it names, or a refusal. -/
def Honoured (str : String) (port : StartArguments → BitVec 16) (e : ActionEnd) : Prop :=
  (str = "" ∧ ∃ args, e.Starts args ∧ port args = 27015) ∨
  (∃ n args, PortNumber str n ∧ e.Starts args ∧ (port args).toNat = n) ∨
  e.Refuses

/-- An empty line or a port. -/
def Acceptable (str : String) : Prop := str = "" ∨ ∃ n, PortNumber str n

/-- The line is converted without an exception. -/
def Converts (str : String) : Prop := ∃ port, portOf str = .ok port

section Lines
variable {str : String}

theorem portOf_empty : portOf "" = .ok 27015 := rfl

theorem PortNumber.nonempty {n : ℕ} (h : PortNumber str n) : str ≠ "" := by
  rintro rfl
  exact h.decimal.nonempty rfl

theorem PortNumber.portOf {n : ℕ} (h : PortNumber str n) : portOf str = .ok (BitVec.ofNat 16 n) := by
  have hbounded := h.bounded
  have hrange : n ≤ 2147483647 := by omega
  rw [Relay.portOf, if_neg h.nonempty, h.decimal.stoi, h.value, if_pos hrange]
  exact congrArg Except.ok (BitVec.ofInt_natCast 16 n)

theorem Acceptable.converts (h : Acceptable str) : Converts str := by
  rcases h with rfl | ⟨n, hn⟩
  · exact ⟨_, portOf_empty⟩
  · exact ⟨_, hn.portOf⟩

end Lines

/-! One visit of the action. -/

section Action
variable {proxy : UdpProxy} {lportStr rhost rportStr : String}

theorem startArguments_ok_iff {args : StartArguments} :
    startArguments lportStr rhost rportStr = .ok args ↔ portOf lportStr = .ok args.listenPort ∧
      portOf rportStr = .ok args.remotePort ∧
      args.remoteHost = if rhost = "" then "1.1.1.1" else rhost := by
  obtain ⟨lport, host, rport⟩ := args
  unfold startArguments
  cases hl : portOf lportStr with
  | error e => exact iff_of_false nofun fun h => nomatch h.1
  | ok l =>
    cases hr : portOf rportStr with
    | error e => exact iff_of_false nofun fun h => nomatch h.2.1
    | ok r =>
      constructor
      · intro h
        cases h
        exact ⟨rfl, rfl, rfl⟩
      · rintro ⟨hlport, hrport, hhost⟩
        cases hlport
        cases hrport
        subst hhost
        rfl

theorem exists_startArguments_iff : (∃ args, startArguments lportStr rhost rportStr = .ok args) ↔
    Converts lportStr ∧ Converts rportStr := by
  constructor
  · rintro ⟨args, hargs⟩
    obtain ⟨hl, hr, -⟩ := startArguments_ok_iff.mp hargs
    exact ⟨⟨_, hl⟩, ⟨_, hr⟩⟩
  · rintro ⟨⟨l, hl⟩, ⟨r, hr⟩⟩
    exact ⟨⟨l, _, r⟩, startArguments_ok_iff.mpr ⟨hl, hr, rfl⟩⟩

/-- A relay starts where the lines are converted and no thread is left. -/
theorem starts_iff {args : StartArguments} : (relayAction proxy lportStr rhost rportStr).Starts args ↔
    startArguments lportStr rhost rportStr = .ok args ∧ proxy.running = false ∧
      proxy.workerThread = none := by
  unfold relayAction ActionEnd.Starts
  cases hargs : startArguments lportStr rhost rportStr with
  | error e => simp
  | ok args' =>
    cases hrun : proxy.running with
    | true => simp [start, hrun]
    | false =>
      cases hthread : proxy.workerThread with
      | some pc => simp [start, hrun, hthread]
      | none =>
        simp only [start, hrun, hthread, Option.isSome_none, Bool.false_eq_true, if_false]
        constructor
        · rintro ⟨result, proxy', heq, -⟩
          cases heq
          exact ⟨rfl, trivial, trivial⟩
        · rintro ⟨heq, -, -⟩
          cases heq
          exact ⟨_, _, rfl, rfl⟩

/-- Only a relay that already runs is a reason to refuse. -/
theorem refuses_iff : (relayAction proxy lportStr rhost rportStr).Refuses ↔
    (∃ args, startArguments lportStr rhost rportStr = .ok args) ∧ proxy.running = true := by
  unfold relayAction ActionEnd.Refuses
  cases hargs : startArguments lportStr rhost rportStr with
  | error e => simp
  | ok args' =>
    cases hrun : proxy.running with
    | true => simp [start, hrun]
    | false =>
      cases hthread : proxy.workerThread with
      | some pc => simp [start, hrun, hthread]
      | none => simp [start, hrun, hthread]

/-- Both lines lead to what the prompts are for. -/
def BothHonoured (proxy : UdpProxy) (lportStr rhost rportStr : String) : Prop :=
  Honoured lportStr StartArguments.listenPort (relayAction proxy lportStr rhost rportStr) ∧
    Honoured rportStr StartArguments.remotePort (relayAction proxy lportStr rhost rportStr)

theorem Honoured.acceptable {str : String} {port : StartArguments → BitVec 16} {e : ActionEnd}
    (h : Honoured str port e) (hnot : ¬ e.Refuses) :
    Acceptable str ∧ ∃ args, e.Starts args := by
  rcases h with ⟨hempty, args, hstarts, -⟩ | ⟨n, args, hn, hstarts, -⟩ | hrefuses
  · exact ⟨.inl hempty, args, hstarts⟩
  · exact ⟨.inr ⟨n, hn⟩, args, hstarts⟩
  · exact absurd hrefuses hnot

/-- A relay started from an acceptable line has its port. -/
theorem Acceptable.honoured {str : String} {port : StartArguments → BitVec 16} {e : ActionEnd}
    {args : StartArguments} (h : Acceptable str) (hstarts : e.Starts args)
    (hport : portOf str = .ok (port args)) : Honoured str port e := by
  rcases h with rfl | ⟨n, hn⟩
  · refine .inl ⟨rfl, args, hstarts, ?_⟩
    exact (Except.ok.inj (portOf_empty.symm.trans hport)).symm
  · refine .inr (.inl ⟨n, args, hn, hstarts, ?_⟩)
    have hn' := Except.ok.inj (hn.portOf.symm.trans hport)
    have hbounded := hn.bounded
    rw [← hn', BitVec.toNat_ofNat, Nat.mod_eq_of_lt (by omega)]

theorem bothHonoured_idle_iff (hrun : proxy.running = false) :
    BothHonoured proxy lportStr rhost rportStr ↔
      proxy.workerThread = none ∧ Acceptable lportStr ∧ Acceptable rportStr := by
  have hnot : ¬ (relayAction proxy lportStr rhost rportStr).Refuses := fun h =>
    absurd ((refuses_iff.mp h).2.symm.trans hrun) (by decide)
  constructor
  · rintro ⟨hl, hr⟩
    obtain ⟨hlok, args, hstarts⟩ := hl.acceptable hnot
    exact ⟨(starts_iff.mp hstarts).2.2, hlok, (hr.acceptable hnot).1⟩
  · rintro ⟨hthread, hl, hr⟩
    obtain ⟨args, hargs⟩ : ∃ args, startArguments lportStr rhost rportStr = .ok args :=
      exists_startArguments_iff.mpr ⟨hl.converts, hr.converts⟩
    have hstarts : (relayAction proxy lportStr rhost rportStr).Starts args :=
      starts_iff.mpr ⟨hargs, hrun, hthread⟩
    obtain ⟨hlport, hrport, -⟩ := startArguments_ok_iff.mp hargs
    exact ⟨hl.honoured hstarts hlport, hr.honoured hstarts hrport⟩

end Action

/-! Visits of the action, one after the other. -/

/-- The lines of a visit, and whether the worker's socket or bind fails before the key that stops the
relay is pressed. -/
structure Visit where
  lportStr : String
  rhost : String
  rportStr : String
  fails : Bool

/-- Stop joins a thread that runs; one that has cleared the flag stays as it is. -/
def afterKey (fails : Bool) (proxy : UdpProxy) : UdpProxy :=
  { proxy with running := false, workerThread := if fails then some .returned else none }

/-- The relay at the menu after a visit, none where the program ends. -/
def visit (proxy : UdpProxy) (v : Visit) : Option UdpProxy :=
  match relayAction proxy v.lportStr v.rhost v.rportStr with
  | .returned _ result proxy' => some (if result.success then afterKey v.fails proxy' else proxy')
  | _ => none

/-- The owner is in no call, and the flag is clear. -/
structure AtMenu (proxy : UdpProxy) : Prop where
  idle : proxy.owner = .idle
  stopped : proxy.running = false
  settled : proxy.spawned = none

theorem atMenu_initial : AtMenu UdpProxy.initial := ⟨rfl, rfl, rfl⟩

section Visits
variable {proxy proxy' : UdpProxy} {v : Visit}

/-- A visit that comes back has started a relay and left it behind a key press. -/
theorem visit_some (h : AtMenu proxy) (hv : visit proxy v = some proxy') :
    proxy.workerThread = none ∧
      proxy' = afterKey v.fails { proxy with running := true, workerThread := some .socket } := by
  unfold visit relayAction at hv
  cases hargs : startArguments v.lportStr v.rhost v.rportStr with
  | error e => simp [hargs] at hv
  | ok args =>
    cases hthread : proxy.workerThread with
    | some pc => simp [hargs, start, h.stopped, hthread] at hv
    | none =>
      simp only [hargs, start, h.stopped, hthread, Option.isSome_none, Bool.false_eq_true, if_false,
        if_true, Option.some.injEq] at hv
      exact ⟨rfl, hv.symm⟩

theorem atMenu_visit (h : AtMenu proxy) (hv : visit proxy v = some proxy') : AtMenu proxy' := by
  obtain ⟨-, rfl⟩ := visit_some h hv
  exact ⟨h.idle, rfl, h.settled⟩

theorem atMenu_visits {vs : List Visit} (h : run visit UdpProxy.initial vs = some proxy) :
    AtMenu proxy :=
  run_invariant (fun _ _ _ hs _ hstep => atMenu_visit hs hstep) along_true atMenu_initial h

/-- A visit is a run of the owner's calls and of the worker. -/
theorem visit_run (h : AtMenu proxy) (hv : visit proxy v = some proxy') :
    ∃ as, run step proxy as = some proxy' := by
  obtain ⟨hnone, rfl⟩ := visit_some h hv
  obtain ⟨owner, running, workerThread, spawned⟩ := proxy
  obtain ⟨rfl, rfl, rfl⟩ := h
  cases hnone
  cases v.fails with
  | false =>
    exact ⟨[.callStart, .owner, .owner, .owner, .worker .socketOk, .worker .bindOk, .callStop, .owner,
      .worker .leave, .worker .ret, .owner], rfl⟩
  | true =>
    exact ⟨[.callStart, .owner, .owner, .owner, .worker .socketFails, .worker .clear, .worker .ret,
      .callStop], rfl⟩

/-- With a thread left, Start assigns to it and the program ends. -/
theorem start_none_run (h : AtMenu proxy) (args : StartArguments) (hnone : start proxy args = none) :
    ∃ t, run step proxy [.callStart, .owner, .owner, .owner] = some t ∧ t.owner = .terminated := by
  obtain ⟨owner, running, workerThread, spawned⟩ := proxy
  obtain ⟨rfl, rfl, rfl⟩ := h
  cases workerThread with
  | none => simp [start] at hnone
  | some pc => exact ⟨_, rfl, rfl⟩

end Visits

/-- In every session both lines are honoured exactly when each is empty or a port and no thread is left
of a relay that ended by itself. -/
theorem relayAction_ports_iff {vs : List Visit} {proxy : UdpProxy}
    (h : run visit UdpProxy.initial vs = some proxy) (lportStr rhost rportStr : String) :
    BothHonoured proxy lportStr rhost rportStr ↔
      proxy.workerThread = none ∧ Acceptable lportStr ∧ Acceptable rportStr :=
  bothHonoured_idle_iff (atMenu_visits h).stopped

/-- A number beyond 16 bits is narrowed. -/
example : startArguments "70000" "" "" = .ok ⟨4464, "1.1.1.1", 27015⟩ := by rfl

/-- The second visit, after a relay on another port. -/
theorem relayAction_ports_secondVisit : ∃ proxy,
    run visit UdpProxy.initial [⟨"27016", "", "", false⟩] = some proxy ∧ BothHonoured proxy "8080" "" "" := by
  obtain ⟨proxy, hproxy, hthread⟩ : ∃ proxy,
      run visit UdpProxy.initial [⟨"27016", "", "", false⟩] = some proxy ∧ proxy.workerThread = none :=
    ⟨_, rfl, rfl⟩
  refine ⟨proxy, hproxy, (relayAction_ports_iff hproxy _ _ _).mpr ⟨hthread, .inr ⟨8080, ?_⟩, .inl rfl⟩⟩
  exact ⟨by decide, by decide, by decide, by decide⟩

/-- 70000 is taken for 4464. -/
theorem not_relayAction_ports_wrapped : ¬ ∀ (lportStr rhost rportStr : String),
    BothHonoured UdpProxy.initial lportStr rhost rportStr := by
  intro h
  rcases ((bothHonoured_idle_iff rfl).mp (h "70000" "" "")).2.1 with hempty | ⟨n, hn⟩
  · exact absurd hempty (by decide)
  · have hvalue : Nat.ofDigitChars 10 "70000".toList 0 = 70000 := by decide
    have hbounded := hn.bounded
    rw [← hn.value, hvalue] at hbounded
    exact absurd hbounded (by decide)

end Disping.Relay
