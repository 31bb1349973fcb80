import Disping.Relay.ForwardLoop
import Disping.Transition.Runs

/-! # The relay between clients and a remote server

The parties exchange datagrams through a network that delays, reorders and loses them. The relay
has one socket: what the clients send and what the remote answers arrive at it alike, and the loop
passes on whatever arrives. The address it stores for the sender is not looked at.
-/
namespace Disping.Relay
open Machine Transition

structure Endpoint where
  address : BitVec 32
  port : BitVec 16
deriving DecidableEq

structure Message where
  source : Endpoint
  destination : Endpoint
  bytes : List (BitVec 8)
deriving DecidableEq

/-- What recvfrom makes of a datagram; one longer than the buffer is an error. -/
def recvfrom (bytes : List (BitVec 8)) : Received :=
  if hempty : 0 < bytes.length then
    if hfits : bytes.length ≤ 65536 then .datagram ⟨bytes, hempty, hfits⟩ else .failed
  else .empty

/-- Where the worker is in its loop. -/
inductive LoopPc
  /-- The flag m_running is read next. -/
  | checking
  | receiving
  | closed
deriving DecidableEq

/-- The parties' fixed data: the processor, the worker's buffers and the two addresses. -/
structure Setup where
  cpu : Cpu
  buffers : Buffers
  listening : Endpoint
  remoteAddr : Endpoint

structure Network where
  running : Bool
  pc : LoopPc
  relay : RelayState
  inFlight : List Message
  /-- The datagrams that have reached the remote. -/
  heard : List Message
  /-- The datagrams that sendto accepted, under the address they came from. -/
  forwarded : List Message

/-- The results of sendto and of the clock in one round of the loop. -/
structure SendOutcome where
  sent : BitVec 32
  us : ℚ

inductive NetworkEvent
  | clientSends (client : Endpoint) (bytes : List (BitVec 8))
  /-- The flag is read. -/
  | poll
  /-- recvfrom takes the datagram at the index. -/
  | receive (i : ℕ) (o : SendOutcome)
  | timesOut
  | stop
  /-- The datagram at the index reaches the remote. -/
  | remoteHears (i : ℕ)
  /-- The remote answers the datagram it heard at the index. -/
  | remoteReplies (i : ℕ) (bytes : List (BitVec 8))
  | lost (i : ℕ)

def SendOutcome.iteration (o : SendOutcome) (m : Message) : Iteration :=
  { received := recvfrom m.bytes, sent := o.sent, us := o.us }

variable (c : Setup)

/-- The round of the loop that takes a message; what it sends on leaves the listening socket. -/
def relayMessage (n : Network) (i : ℕ) (o : SendOutcome) (m : Message) : Option Network := do
  let relay ← relayIteration c.cpu c.buffers n.relay (o.iteration m)
  let passed := relay.payloads.drop n.relay.payloads.length
  let accepted := if 0 < o.sent.toInt then passed else []
  some { n with
    pc := .checking
    relay := relay
    inFlight := n.inFlight.eraseIdx i ++
      accepted.map fun bytes => ⟨c.listening, c.remoteAddr, bytes⟩
    forwarded := n.forwarded ++ accepted.map fun bytes => ⟨m.source, c.remoteAddr, bytes⟩ }

def networkStep (n : Network) : NetworkEvent → Option Network
  | .clientSends client bytes =>
    if client ≠ c.remoteAddr then
      some { n with inFlight := n.inFlight ++ [⟨client, c.listening, bytes⟩] }
    else none
  | .poll =>
    if n.pc = .checking then some { n with pc := if n.running then .receiving else .closed }
    else none
  | .receive i o =>
    (n.inFlight[i]?).bind fun m =>
      if n.pc = .receiving ∧ m.destination = c.listening then relayMessage c n i o m else none
  | .timesOut => if n.pc = .receiving then some { n with pc := .checking } else none
  | .stop => some { n with running := false }
  | .remoteHears i =>
    (n.inFlight[i]?).bind fun m =>
      if m.destination = c.remoteAddr then
        some { n with inFlight := n.inFlight.eraseIdx i, heard := n.heard ++ [m] }
      else none
  | .remoteReplies i bytes =>
    (n.heard[i]?).map fun m =>
      { n with inFlight := n.inFlight ++ [⟨c.remoteAddr, m.source, bytes⟩] }
  | .lost i => some { n with inFlight := n.inFlight.eraseIdx i }

/-- The loop is entered with the socket bound; no datagram has been sent yet. -/
def Network.initial (s : State) : Network where
  running := true
  pc := .checking
  relay := startState s
  inFlight := []
  heard := []
  forwarded := []

/-- What the relay passes on of a message. -/
def passedOn (o : SendOutcome) (m : Message) : List (List (BitVec 8)) :=
  if 0 < o.sent.toInt then (recvfrom m.bytes).datagram?.toList.map Datagram.bytes else []

variable {c} {n n' : Network}

theorem relayMessage_some (n : Network) (i : ℕ) (o : SendOutcome) (m : Message) :
    ∃ n', relayMessage c n i o m = some n' ∧ n'.running = n.running ∧ n'.pc = .checking ∧
      n'.heard = n.heard ∧
      n'.inFlight = n.inFlight.eraseIdx i ++
        (passedOn o m).map (fun bytes => ⟨c.listening, c.remoteAddr, bytes⟩) ∧
      n'.forwarded = n.forwarded ++
        (passedOn o m).map fun bytes => ⟨m.source, c.remoteAddr, bytes⟩ := by
  obtain ⟨relay, hrun, hpayloads, -⟩ :=
    relayIteration_some c.cpu c.buffers n.relay (o.iteration m)
  have hpassed : relay.payloads.drop n.relay.payloads.length =
      (recvfrom m.bytes).datagram?.toList.map Datagram.bytes := by
    rw [hpayloads, List.drop_left]
    unfold delivered SendOutcome.iteration
    cases hd : (recvfrom m.bytes).datagram? <;> simp [hd]
  have haccepted : (if 0 < o.sent.toInt then relay.payloads.drop n.relay.payloads.length else []) =
      passedOn o m := by
    rw [hpassed]
    rfl
  unfold relayMessage
  rw [hrun, Option.bind_eq_bind, Option.bind_some]
  exact ⟨_, rfl, rfl, rfl, rfl, by rw [← haccepted], by rw [← haccepted]⟩

/-- A step passes on what the message it receives holds, and any other step nothing. -/
theorem networkStep_forwarded {e : NetworkEvent} (h : networkStep c n e = some n') :
    (∃ i o m, e = .receive i o ∧ n.inFlight[i]? = some m ∧
      n'.forwarded = n.forwarded ++
        (passedOn o m).map fun bytes => ⟨m.source, c.remoteAddr, bytes⟩) ∨
    (∀ i o, e ≠ .receive i o) ∧ n'.forwarded = n.forwarded := by
  cases e with
  | receive i o =>
    obtain ⟨m, hm, hif⟩ := Option.bind_eq_some_iff.mp h
    obtain ⟨-, hrelay⟩ := Option.ite_none_right_eq_some.mp hif
    obtain ⟨n'', hsome, -, -, -, -, hforwarded⟩ := relayMessage_some (c := c) n i o m
    cases hsome.symm.trans hrelay
    exact .inl ⟨i, o, m, rfl, hm, hforwarded⟩
  | clientSends client bytes =>
    refine .inr ⟨nofun, ?_⟩
    obtain ⟨-, hsome⟩ := Option.ite_none_right_eq_some.mp h
    cases hsome
    rfl
  | poll =>
    refine .inr ⟨nofun, ?_⟩
    obtain ⟨-, hsome⟩ := Option.ite_none_right_eq_some.mp h
    cases hsome
    rfl
  | timesOut =>
    refine .inr ⟨nofun, ?_⟩
    obtain ⟨-, hsome⟩ := Option.ite_none_right_eq_some.mp h
    cases hsome
    rfl
  | stop =>
    cases h
    exact .inr ⟨nofun, rfl⟩
  | remoteHears i =>
    refine .inr ⟨nofun, ?_⟩
    obtain ⟨m, -, hif⟩ := Option.bind_eq_some_iff.mp h
    obtain ⟨-, hsome⟩ := Option.ite_none_right_eq_some.mp hif
    cases hsome
    rfl
  | remoteReplies i bytes =>
    obtain ⟨m, -, rfl⟩ := Option.map_eq_some_iff.mp h
    exact .inr ⟨nofun, rfl⟩
  | lost i =>
    cases h
    exact .inr ⟨nofun, rfl⟩

/-- No datagram that came from the remote has been sent to it. -/
def NoneReflected (c : Setup) (n : Network) : Prop := ∀ m ∈ n.forwarded, m.source ≠ c.remoteAddr

/-- The step takes no datagram of the remote that has bytes and that sendto then accepts. -/
def TakesNoReply (c : Setup) (n : Network) (e : NetworkEvent) : Prop :=
  ∀ i o m, e = .receive i o → n.inFlight[i]? = some m → m.source = c.remoteAddr →
    (recvfrom m.bytes).datagram? = none ∨ o.sent.toInt ≤ 0

theorem passedOn_eq_nil {o : SendOutcome} {m : Message} :
    passedOn o m = [] ↔ (recvfrom m.bytes).datagram? = none ∨ o.sent.toInt ≤ 0 := by
  unfold passedOn
  split
  · rename_i hsent
    cases (recvfrom m.bytes).datagram? with
    | none => simp
    | some d => simpa using hsent
  · rename_i hsent
    simpa using .inr (not_lt.mp hsent)

theorem noneReflected_step {e : NetworkEvent} (hn : NoneReflected c n) (hok : TakesNoReply c n e)
    (h : networkStep c n e = some n') : NoneReflected c n' := by
  rcases networkStep_forwarded h with ⟨i, o, m, rfl, hm, hforwarded⟩ | ⟨-, hforwarded⟩
  · unfold NoneReflected
    rw [hforwarded]
    intro x hx
    rcases List.mem_append.mp hx with hx | hx
    · exact hn x hx
    · obtain ⟨bytes, hbytes, rfl⟩ := List.mem_map.mp hx
      intro hsource
      rw [passedOn_eq_nil.mpr (hok i o m rfl hm hsource)] at hbytes
      exact List.not_mem_nil hbytes
  · unfold NoneReflected
    rwa [hforwarded]

theorem reflected_of_reply {e : NetworkEvent} (hok : ¬ TakesNoReply c n e)
    (h : networkStep c n e = some n') : ¬ NoneReflected c n' := by
  unfold TakesNoReply at hok
  push Not at hok
  obtain ⟨i, o, m, rfl, hm, hsource, hdatagram, hsent⟩ := hok
  rcases networkStep_forwarded h with ⟨i', o', m', he, hm', hforwarded⟩ | ⟨hne, -⟩
  · cases he
    cases hm.symm.trans hm'
    have hne : passedOn o m ≠ [] := fun hnil => by
      rcases passedOn_eq_nil.mp hnil with h | h
      · exact hdatagram h
      · exact absurd hsent (not_lt.mpr h)
    obtain ⟨bytes, rest, hpassed⟩ := List.exists_cons_of_ne_nil hne
    intro hnone
    refine hnone ⟨m.source, c.remoteAddr, bytes⟩ ?_ hsource
    rw [hforwarded, hpassed]
    simp
  · exact absurd rfl (hne i o)

/-- What was sent stays sent. -/
theorem reflected_step {e : NetworkEvent} (hn : ¬ NoneReflected c n)
    (h : networkStep c n e = some n') : ¬ NoneReflected c n' := by
  refine fun hnone => hn fun m hm => hnone m ?_
  rcases networkStep_forwarded h with ⟨i, o, m, rfl, -, hforwarded⟩ | ⟨-, hforwarded⟩
  · rw [hforwarded]
    exact List.mem_append_left _ hm
  · rwa [hforwarded]

/-- A run sends the remote nothing of its own exactly when no step of it takes a reply. -/
theorem noneReflected_iff {s : State} {es : List NetworkEvent}
    (h : run (networkStep c) (.initial s) es = some n) :
    NoneReflected c n ↔ Along (networkStep c) (TakesNoReply c) (.initial s) es := by
  have hinitial : NoneReflected c (.initial s) := fun m hm => absurd hm List.not_mem_nil
  constructor
  · intro hnone
    have htrap := run_trap (J := fun n => ¬ NoneReflected c n)
      (fun _ _ _ => noneReflected_step) (fun _ _ _ _ => reflected_of_reply)
      (fun _ _ _ => reflected_step) hinitial h
    exact htrap.resolve_right fun hreflected => hreflected hnone
  · intro hok
    exact run_invariant (fun _ _ _ => noneReflected_step) hok hinitial h

section Bounces

/-- One datagram is on its way to the relay, which is about to read its flag. -/
structure Awaits (c : Setup) (n : Network) (source : Endpoint) : Prop where
  running : n.running = true
  pc : n.pc = .checking
  inFlight : n.inFlight = [⟨source, c.listening, [0]⟩]

/-- The relay passes the datagram on, and the remote answers it. -/
def roundTrip (n : Network) : List NetworkEvent :=
  [.poll, .receive 0 ⟨1, 0⟩, .remoteHears 0, .remoteReplies n.heard.length [0]]

theorem roundTrip_run {source : Endpoint} (h : Awaits c n source) :
    ∃ n', run (networkStep c) n (roundTrip n) = some n' ∧ Awaits c n' c.remoteAddr ∧
      n'.forwarded = n.forwarded ++ [⟨source, c.remoteAddr, [0]⟩] := by
  obtain ⟨hrunning, hpc, hflight⟩ := h
  let m : Message := ⟨source, c.listening, [0]⟩
  have hpassed : passedOn ⟨1, 0⟩ m = [[0]] := by
    simp [passedOn, m, recvfrom, Received.datagram?]
  obtain ⟨n₂, hrelay, hrunning₂, hpc₂, hheard₂, hflight₂, hforwarded₂⟩ :=
    relayMessage_some (c := c) { n with pc := .receiving } 0 ⟨1, 0⟩ m
  rw [hpassed] at hflight₂ hforwarded₂
  have hfirst : networkStep c n .poll = some { n with pc := .receiving } := by
    simp [networkStep, hpc, hrunning]
  have hsecond : networkStep c { n with pc := .receiving } (.receive 0 ⟨1, 0⟩) = some n₂ := by
    simpa [networkStep, hflight, m] using hrelay
  have hflight₂' : n₂.inFlight = [⟨c.listening, c.remoteAddr, [0]⟩] := by
    simpa [hflight] using hflight₂
  refine ⟨{ n₂ with
    inFlight := [⟨c.remoteAddr, c.listening, [0]⟩]
    heard := n.heard ++ [⟨c.listening, c.remoteAddr, [0]⟩] }, ?_, ⟨?_, hpc₂, rfl⟩, ?_⟩
  · rw [roundTrip, run, hfirst, Option.bind_some, run, hsecond, Option.bind_some]
    simp [run, networkStep, hflight₂', hheard₂]
  · exact hrunning₂.trans hrunning
  · simpa using hforwarded₂

/-- An answer can bounce between the relay and the remote any number of times. -/
theorem exists_bounces (c : Setup) (s : State) {client : Endpoint} (hclient : client ≠ c.remoteAddr)
    (k : ℕ) : ∃ es n, run (networkStep c) (.initial s) es = some n ∧ Awaits c n c.remoteAddr ∧
      n.forwarded.countP (fun m => m.source = c.remoteAddr) = k := by
  induction k with
  | zero =>
    let n₁ : Network := { Network.initial s with inFlight := [⟨client, c.listening, [0]⟩] }
    have hsend : run (networkStep c) (.initial s) [.clientSends client [0]] = some n₁ := by
      simp [run, networkStep, hclient, n₁, Network.initial]
    have hfirst : Awaits c n₁ client := ⟨rfl, rfl, rfl⟩
    obtain ⟨n', hrun, hawaits, hforwarded⟩ := roundTrip_run hfirst
    refine ⟨_, n', (run_append hsend).trans hrun, hawaits, ?_⟩
    rw [hforwarded]
    simp [n₁, Network.initial, hclient]
  | succ k ih =>
    obtain ⟨es, n, hrun, hawaits, hcount⟩ := ih
    obtain ⟨n', hround, hawaits', hforwarded⟩ := roundTrip_run hawaits
    refine ⟨_, n', (run_append hrun).trans hround, hawaits', ?_⟩
    rw [hforwarded, List.countP_append, hcount]
    simp

end Bounces

/-- Two buffers and three addresses: the relay on port 9000, the remote on 27015. -/
def exampleSetup : Setup where
  cpu := default
  buffers :=
    { packetBuffer := 0x10000
      relayBuffer := 0x20000
      packet_ne := by decide
      relay_ne := by decide
      packet_aligned := by decide
      relay_aligned := by decide
      packet_end := by decide
      relay_end := by decide
      disjoint := by decide }
  listening := ⟨0x7F000001, 9000⟩
  remoteAddr := ⟨0x0A000001, 27015⟩

def exampleClient : Endpoint := ⟨0x7F000001, 9001⟩

/-- A datagram of the client is lost before the relay reads it. -/
theorem noneReflected_iff_lost : Along (networkStep exampleSetup) (TakesNoReply exampleSetup)
    (.initial default) [.clientSends exampleClient [0], .poll, .timesOut, .lost 0] := by
  obtain ⟨n, hrun, hnone⟩ : ∃ n, run (networkStep exampleSetup) (.initial default)
      [.clientSends exampleClient [0], .poll, .timesOut, .lost 0] = some n ∧ n.forwarded = [] :=
    ⟨_, rfl, rfl⟩
  refine (noneReflected_iff hrun).mp fun m hm => ?_
  rw [hnone] at hm
  exact absurd hm List.not_mem_nil

/-- The answer of the remote comes back to it. -/
theorem not_noneReflected_answer : ¬ ∀ (c : Setup) (s : State) (es : List NetworkEvent) (n : Network),
    run (networkStep c) (.initial s) es = some n → NoneReflected c n := by
  intro h
  obtain ⟨es, n, hrun, -, hcount⟩ := exists_bounces exampleSetup default
    (show exampleClient ≠ exampleSetup.remoteAddr by decide) 1
  obtain ⟨m, hm, hsource⟩ := List.countP_pos_iff.mp (hcount.symm ▸ Nat.one_pos)
  exact h _ _ _ _ hrun m hm (by simpa using hsource)

end Disping.Relay
