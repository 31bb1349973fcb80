import Mathlib.Algebra.Group.Int.Defs
import Mathlib.Data.Int.Order.Basic
import Mathlib.Tactic.Common

/-! # The search for the largest payload that is answered

The search probes the two ends of its range and then halves what lies between. It runs in any
monad, and a probe in it may answer the same size differently each time.
-/
namespace Disping.Links

/-- What the calls of one probe return. -/
structure EchoOutcome where
  /-- IcmpCreateFile gave a handle. -/
  opened : Bool
  /-- The address inet_addr reads from the text, none for INADDR_NONE. -/
  parsed : Option (BitVec 32)
  /-- The first address gethostbyname gives. -/
  resolved : Option (BitVec 32)
  /-- The result of IcmpSendEcho2. -/
  replies : BitVec 32
  /-- The status of the reply; IP_SUCCESS is 0. -/
  status : BitVec 32

/-- The probe's answer from the outcome of its calls. -/
def probePacketSize (o : EchoOutcome) : Bool :=
  if o.opened then
    if o.parsed.isSome || o.resolved.isSome then
      if o.replies ≠ 0 then o.status = 0 else false
    else false
  else false

structure MtuResult where
  optimalMtu : BitVec 32 := 1500
  optimalMss : BitVec 32 := 1460
  found : Bool := false
  notes : String := ""

section Search
variable {m : Type → Type} [Monad m] (probe : BitVec 16 → m Bool)

/-- The loop, with the largest payload answered so far. -/
def searchPayload (low high optimalPayload : ℤ) : m ℤ :=
  if h : low ≤ high then do
    let mid := low + (high - low) / 2
    if ← probe (BitVec.ofInt 16 mid) then searchPayload (mid + 1) high mid
    else searchPayload low (mid - 1) optimalPayload
  else pure optimalPayload
termination_by (high + 1 - low).toNat
decreasing_by all_goals omega

def discoverOptimalMtu : m MtuResult := do
  if !(← probe 1200) then
    pure { optimalMtu := 1500
           optimalMss := 1460
           found := false
           notes := "Target host did not reply to ICMP ping or path is unreachable." }
  else if ← probe 1472 then
    pure { optimalMtu := 1500
           optimalMss := 1460
           found := true
           notes := "Standard 1500 byte MTU confirmed with zero fragmentation." }
  else
    let optimalPayload ← searchPayload probe 1200 1472 (-1)
    if optimalPayload > 0 then
      let optimalMtu := BitVec.ofInt 32 (optimalPayload + 28)
      pure { optimalMtu := optimalMtu
             optimalMss := optimalMtu - 40
             found := true
             notes := "Optimal MTU discovered via DF Binary Search: " ++ toString optimalMtu.toNat }
    else
      pure { optimalMtu := 1500
             optimalMss := 1460
             found := false
             notes := "Could not converge; using standard 1500 MTU." }

end Search

/-! A run against an oracle that sees what was probed before. -/

/-- A payload size and whether it was answered. -/
abbrev Probe := BitVec 16 × Bool

/-- The outcome of a probe, by the probes before it. -/
abbrev Oracle := List Probe → BitVec 16 → EchoOutcome

def Oracle.probe (oracle : Oracle) (size : BitVec 16) : StateM (List Probe) Bool := fun history =>
  let answered := probePacketSize (oracle history size)
  (answered, history ++ [(size, answered)])

namespace Probe

def size (p : Probe) : ℤ := p.1.toNat

def answered (p : Probe) : Bool := p.2

theorem size_ofInt {n : ℤ} (h0 : 0 ≤ n) (h : n < 65536) (b : Bool) :
    size (BitVec.ofInt 16 n, b) = n := by
  simp only [size, BitVec.toNat_ofInt]
  omega

end Probe

/-- What the probes of a search say about its result. -/
structure Searched (low high best r : ℤ) (probes : List Probe) : Prop where
  within : ∀ p ∈ probes, low ≤ p.size ∧ p.size ≤ high
  below : ∀ p ∈ probes, p.answered = true → p.size ≤ r
  above : ∀ p ∈ probes, p.answered = false → r < p.size
  result : r = best ∨ low ≤ r ∧ ∃ p ∈ probes, p.answered = true ∧ p.size = r
  /-- The next size is out of range or was not answered. -/
  boundary : max r (low - 1) = high ∨
    ∃ p ∈ probes, p.answered = false ∧ p.size = max r (low - 1) + 1

section Steps
variable {low high best mid r : ℤ} {probes : List Probe} {p : Probe}

theorem Searched.nil (hbest : best < low) (hrange : low = high + 1) :
    Searched low high best best [] where
  within := by simp
  below := by simp
  above := by simp
  result := Or.inl rfl
  boundary := Or.inl (by omega)

theorem Searched.result_le (h : Searched low high best r probes) (hbest : best < low) :
    best ≤ r := by
  rcases h.result with rfl | ⟨hlow, -⟩
  · exact le_refl r
  · omega

/-- An answered size becomes the best one, and the search goes on above it. -/
theorem Searched.answer (h : Searched (mid + 1) high mid r probes) (hp : p.size = mid)
    (hanswered : p.answered = true) (hlow : low ≤ mid) (hhigh : mid ≤ high) :
    Searched low high best r (p :: probes) := by
  have hr := h.result_le (Int.lt_succ mid)
  constructor
  · intro q hq
    rcases List.mem_cons.mp hq with rfl | hq
    · omega
    · have := h.within q hq
      omega
  · intro q hq hyes
    rcases List.mem_cons.mp hq with rfl | hq
    · omega
    · exact h.below q hq hyes
  · intro q hq hno
    rcases List.mem_cons.mp hq with rfl | hq
    · simp [hanswered] at hno
    · exact h.above q hq hno
  · right
    rcases h.result with rfl | ⟨-, q, hq, hfound⟩
    · exact ⟨hlow, p, by simp, hanswered, hp⟩
    · exact ⟨by omega, q, by simp [hq], hfound⟩
  · have hmax : max r (mid + 1 - 1) = max r (low - 1) := by omega
    rcases h.boundary with hend | ⟨q, hq, hnext⟩
    · exact Or.inl (by omega)
    · exact Or.inr ⟨q, by simp [hq], by rw [← hmax]; exact hnext⟩

/-- A size without an answer bounds the search from above. -/
theorem Searched.silence (h : Searched low (mid - 1) best r probes) (hp : p.size = mid)
    (hsilent : p.answered = false) (hbest : best < low) (hlow : low ≤ mid) (hhigh : mid ≤ high) :
    Searched low high best r (p :: probes) := by
  have hr : r < mid := by
    rcases h.result with rfl | ⟨-, q, hq, -, hsize⟩
    · omega
    · have := h.within q hq
      omega
  constructor
  · intro q hq
    rcases List.mem_cons.mp hq with rfl | hq
    · omega
    · have := h.within q hq
      omega
  · intro q hq hyes
    rcases List.mem_cons.mp hq with rfl | hq
    · simp [hsilent] at hyes
    · exact h.below q hq hyes
  · intro q hq hno
    rcases List.mem_cons.mp hq with rfl | hq
    · omega
    · exact h.above q hq hno
  · rcases h.result with hsame | ⟨hle, q, hq, hfound⟩
    · exact Or.inl hsame
    · exact Or.inr ⟨hle, q, by simp [hq], hfound⟩
  · right
    rcases h.boundary with hend | ⟨q, hq, hnext⟩
    · exact ⟨p, by simp, hsilent, by omega⟩
    · exact ⟨q, by simp [hq], hnext⟩

end Steps

/-- The recorded answers are the oracle's. -/
def FromOracle (oracle : Oracle) (probes : List Probe) : Prop :=
  ∀ p ∈ probes, ∃ before, p.answered = probePacketSize (oracle before p.1)

variable (oracle : Oracle)

/-- A search takes as many probes as its range has binary digits. -/
theorem searchPayload_run (k : ℕ) {low high best : ℤ} (history : List Probe) (h0 : 0 ≤ low)
    (hhigh : high < 65536) (hbest : best < low) (hrange : low ≤ high + 1)
    (hk : high + 1 - low < 2 ^ k) :
    ∃ r probes, searchPayload oracle.probe low high best history = (r, history ++ probes) ∧
      probes.length ≤ k ∧ FromOracle oracle probes ∧ Searched low high best r probes := by
  induction k generalizing low high best history with
  | zero =>
    have hempty : ¬ low ≤ high := by
      rw [Int.pow_zero] at hk
      omega
    refine ⟨best, [], ?_, Nat.le_refl _, by simp [FromOracle], Searched.nil hbest (by omega)⟩
    rw [searchPayload, dif_neg hempty, List.append_nil]
    rfl
  | succ k ih =>
    by_cases hle : low ≤ high
    · rw [Int.pow_succ] at hk
      obtain ⟨mid, hmid⟩ : ∃ mid, mid = low + (high - low) / 2 := ⟨_, rfl⟩
      let p : Probe := (BitVec.ofInt 16 mid, probePacketSize (oracle history (BitVec.ofInt 16 mid)))
      have hp : p.size = mid := Probe.size_ofInt (by omega) (by omega) _
      have hstep : searchPayload oracle.probe low high best history =
          (if p.answered then searchPayload oracle.probe (mid + 1) high mid
            else searchPayload oracle.probe low (mid - 1) best) (history ++ [p]) := by
        rw [searchPayload, dif_pos hle, ← hmid]
        rfl
      have hfrom : ∀ probes, FromOracle oracle probes → FromOracle oracle (p :: probes) := by
        intro probes hprobes q hq
        rcases List.mem_cons.mp hq with rfl | hq
        · exact ⟨history, rfl⟩
        · exact hprobes q hq
      cases hanswer : p.answered with
      | true =>
        obtain ⟨r, probes, hrun, hlength, horacle, hsearched⟩ :=
          @ih (mid + 1) high mid (history ++ [p]) (by omega) hhigh (by omega) (by omega) (by omega)
        refine ⟨r, p :: probes, ?_, by simpa using hlength, hfrom probes horacle,
          hsearched.answer hp hanswer (by omega) (by omega)⟩
        rw [hstep, hanswer, if_pos rfl, hrun, List.append_assoc]
        rfl
      | false =>
        obtain ⟨r, probes, hrun, hlength, horacle, hsearched⟩ :=
          @ih low (mid - 1) best (history ++ [p]) h0 (by omega) hbest (by omega) (by omega)
        refine ⟨r, p :: probes, ?_, by simpa using hlength, hfrom probes horacle,
          hsearched.silence hp hanswer hbest (by omega) (by omega)⟩
        rw [hstep, hanswer, if_neg (by simp), hrun, List.append_assoc]
        rfl
    · refine ⟨best, [], ?_, Nat.zero_le _, by simp [FromOracle], Searched.nil hbest (by omega)⟩
      rw [searchPayload, dif_neg hle, List.append_nil]
      rfl

/-- Against a threshold the search finds it, as far as it lies in the range. -/
theorem Searched.threshold {low high best r T : ℤ} {probes : List Probe}
    (h : Searched low high best r probes) (hbest : best < low) (hrange : low ≤ high)
    (hT : ∀ p ∈ probes, p.answered = decide (p.size ≤ T)) :
    (r = best ∧ T < low) ∨ (low ≤ T ∧ r = min T high) := by
  have hyes : ∀ p ∈ probes, p.answered = true → p.size ≤ T := fun p hp hanswered =>
    of_decide_eq_true ((hT p hp).symm.trans hanswered)
  have hno : ∀ p ∈ probes, p.answered = false → T < p.size := fun p hp hsilent =>
    not_le.mp (of_decide_eq_false ((hT p hp).symm.trans hsilent))
  rcases h.result with rfl | ⟨hlow, p, hp, hanswered, hsize⟩
  · left
    rcases h.boundary with hend | ⟨q, hq, hsilent, hnext⟩
    · omega
    · have := hno q hq hsilent
      exact ⟨rfl, by omega⟩
  · right
    have hrT := hyes p hp hanswered
    have hrhigh := (h.within p hp).2
    rcases h.boundary with hend | ⟨q, hq, hsilent, hnext⟩
    · omega
    · have := hno q hq hsilent
      omega

/-- What a discovery reports, in terms of the payload `P` it settles on. -/
structure Reports (result : MtuResult) (history : List Probe) (P : ℕ) : Prop where
  mtu : result.optimalMtu.toNat = P + 28
  mss : result.optimalMss.toNat + 40 = result.optimalMtu.toNat
  range : 1200 ≤ P ∧ P ≤ 1472
  replied : ∃ p ∈ history, p.answered = true ∧ p.size = P
  /-- The search starts after the probes of the two ends. -/
  below : ∀ p ∈ history.drop 2, p.answered = true → p.size ≤ P
  above : ∀ p ∈ history.drop 2, p.answered = false → P < p.size

/-- The run of a discovery. -/
def discovery : MtuResult × List Probe := discoverOptimalMtu oracle.probe []

/-- The probe of the lower end, and the one of the upper end after it. -/
def lowProbe : Probe := (1200, probePacketSize (oracle [] 1200))

def highProbe : Probe := (1472, probePacketSize (oracle [lowProbe oracle] 1472))

/-- What a discovery reports after the search. -/
def searchedResult (optimalPayload : ℤ) : MtuResult :=
  if optimalPayload > 0 then
    let optimalMtu := BitVec.ofInt 32 (optimalPayload + 28)
    ⟨optimalMtu, optimalMtu - 40, true,
      "Optimal MTU discovered via DF Binary Search: " ++ toString optimalMtu.toNat⟩
  else ⟨1500, 1460, false, "Could not converge; using standard 1500 MTU."⟩

theorem discovery_eq : discovery oracle =
    if (lowProbe oracle).answered then
      if (highProbe oracle).answered then
        (⟨1500, 1460, true, "Standard 1500 byte MTU confirmed with zero fragmentation."⟩,
          [lowProbe oracle, highProbe oracle])
      else
        let run := searchPayload oracle.probe 1200 1472 (-1) [lowProbe oracle, highProbe oracle]
        (searchedResult run.1, run.2)
    else (⟨1500, 1460, false, "Target host did not reply to ICMP ping or path is unreachable."⟩,
      [lowProbe oracle]) := by
  have hlow : oracle.probe 1200 [] = ((lowProbe oracle).answered, [lowProbe oracle]) := rfl
  have hhigh : oracle.probe 1472 [lowProbe oracle] =
      ((highProbe oracle).answered, [lowProbe oracle, highProbe oracle]) := rfl
  simp only [discovery, discoverOptimalMtu, bind, StateT.bind, hlow]
  cases (lowProbe oracle).answered with
  | false => rfl
  | true =>
    simp only [Bool.not_true, Bool.false_eq_true, if_false, if_true, bind, StateT.bind, hhigh]
    cases (highProbe oracle).answered with
    | true => rfl
    | false =>
      simp only [Bool.false_eq_true, if_false, bind, StateT.bind, searchedResult]
      generalize searchPayload oracle.probe 1200 1472 (-1) [lowProbe oracle, highProbe oracle] = run
      obtain ⟨optimalPayload, history⟩ := run
      by_cases hfound : optimalPayload > 0 <;> simp only [hfound, if_true, if_false] <;> rfl

/-- The oracle answers exactly the sizes up to `T`. -/
def Oracle.UpTo (oracle : Oracle) (T : ℤ) : Prop :=
  ∀ before size, probePacketSize (oracle before size) = decide ((size.toNat : ℤ) ≤ T)

/-- What a discovery owes its oracle. -/
structure Discovered (oracle : Oracle) (run : MtuResult × List Probe) : Prop where
  calls : run.2.length ≤ 11
  reports : run.1.found = true → Reports run.1 run.2 (run.1.optimalMtu.toNat - 28)
  found_iff : ∀ T, oracle.UpTo T → (run.1.found = true ↔ 1200 ≤ T)
  threshold : ∀ T, oracle.UpTo T → run.1.found = true →
    (run.1.optimalMtu.toNat : ℤ) - 28 = min T 1472

theorem discovered_unreachable {notes : String} (h : (lowProbe oracle).answered = false) :
    Discovered oracle (⟨1500, 1460, false, notes⟩, [lowProbe oracle]) where
  calls := by simp
  reports := by simp
  found_iff T hT := by
    have hsilent : ¬ (1200 : ℤ) ≤ T := of_decide_eq_false ((hT [] 1200).symm.trans h)
    simpa using hsilent
  threshold := by simp

theorem discovered_standard {notes : String} (hlow : (lowProbe oracle).answered = true)
    (hhigh : (highProbe oracle).answered = true) :
    Discovered oracle (⟨1500, 1460, true, notes⟩, [lowProbe oracle, highProbe oracle]) where
  calls := by simp
  reports _ :=
    { mtu := rfl
      mss := rfl
      range := ⟨by simp, by simp⟩
      replied := ⟨highProbe oracle, by simp, hhigh, rfl⟩
      below := by simp
      above := by simp }
  found_iff T hT := by
    have hanswered : (1200 : ℤ) ≤ T := of_decide_eq_true ((hT [] 1200).symm.trans hlow)
    simpa using hanswered
  threshold T hT _ := by
    have hanswered : (1472 : ℤ) ≤ T := of_decide_eq_true ((hT [lowProbe oracle] 1472).symm.trans hhigh)
    rw [min_eq_right hanswered]
    rfl

theorem searchedResult_of_pos {r : ℤ} (h : 1200 ≤ r) (hr : r ≤ 1472) :
    (searchedResult r).found = true ∧ ((searchedResult r).optimalMtu.toNat : ℤ) = r + 28 ∧
      (searchedResult r).optimalMss.toNat + 40 = (searchedResult r).optimalMtu.toNat := by
  have hmtu : (BitVec.ofInt 32 (r + 28)).toNat = r.toNat + 28 := by
    rw [BitVec.toNat_ofInt]
    omega
  have hmss : (BitVec.ofInt 32 (r + 28) - 40).toNat + 40 = (BitVec.ofInt 32 (r + 28)).toNat := by
    rw [BitVec.toNat_sub, hmtu]
    have hforty : (40 : BitVec 32).toNat = 40 := rfl
    omega
  unfold searchedResult
  rw [if_pos (by omega)]
  exact ⟨rfl, by simp only [hmtu]; omega, hmss⟩

theorem discovered_searched {r : ℤ} {probes : List Probe} (hlength : probes.length ≤ 9)
    (horacle : FromOracle oracle probes) (h : Searched 1200 1472 (-1) r probes) :
    Discovered oracle (searchedResult r, [lowProbe oracle, highProbe oracle] ++ probes) := by
  have hdrop : ([lowProbe oracle, highProbe oracle] ++ probes).drop 2 = probes := rfl
  have hthreshold : ∀ T, oracle.UpTo T → (r = -1 ∧ T < 1200) ∨ (1200 ≤ T ∧ r = min T 1472) := by
    intro T hT
    refine h.threshold (by omega) (by omega) fun p hp => ?_
    obtain ⟨before, hp⟩ := horacle p hp
    rw [hp, hT before p.1]
    rfl
  have hcalls : ([lowProbe oracle, highProbe oracle] ++ probes).length ≤ 11 := by
    simp only [List.length_append, List.length_cons, List.length_nil]
    omega
  rcases h.result with rfl | ⟨h1200, p, hp, hanswered, hsize⟩
  · refine ⟨hcalls, by simp [searchedResult], fun T hT => ?_, by simp [searchedResult]⟩
    have hsmall : T < 1200 := by
      rcases hthreshold T hT with ⟨-, hsmall⟩ | ⟨hT1200, hmin⟩
      · exact hsmall
      · omega
    simp [searchedResult, hsmall]
  · have h1472 : r ≤ 1472 := hsize ▸ (h.within p hp).2
    obtain ⟨hfound, hmtu, hmss⟩ := searchedResult_of_pos h1200 h1472
    have hP : (((searchedResult r).optimalMtu.toNat - 28 : ℕ) : ℤ) = r := by omega
    have hpayload : (searchedResult r).optimalMtu.toNat =
        (searchedResult r).optimalMtu.toNat - 28 + 28 := by omega
    have hrange : 1200 ≤ (searchedResult r).optimalMtu.toNat - 28 ∧
        (searchedResult r).optimalMtu.toNat - 28 ≤ 1472 := by omega
    refine ⟨hcalls, fun _ => ⟨hpayload, hmss, hrange, ⟨p, by simp [hp], hanswered, ?_⟩, ?_, ?_⟩,
      fun T hT => ?_, fun T hT _ => ?_⟩
    · rw [hP, hsize]
    · rw [hdrop, hP]
      exact h.below
    · rw [hdrop, hP]
      exact h.above
    · rcases hthreshold T hT with ⟨hr, -⟩ | ⟨hT1200, -⟩
      · omega
      · exact iff_of_true hfound hT1200
    · rcases hthreshold T hT with ⟨hr, -⟩ | ⟨-, hmin⟩
      · omega
      · simp only [hmtu]
        omega

/-- A discovery ends after eleven probes, and what it finds is what the probes showed. -/
theorem discoverOptimalMtu_spec : Discovered oracle (discovery oracle) := by
  rw [discovery_eq]
  cases hlow : (lowProbe oracle).answered with
  | false => exact discovered_unreachable oracle hlow
  | true =>
    cases hhigh : (highProbe oracle).answered with
    | true => exact discovered_standard oracle hlow hhigh
    | false =>
      obtain ⟨r, probes, hrun, hlength, horacle, hsearched⟩ := @searchPayload_run oracle 9 1200
        1472 (-1) [lowProbe oracle, highProbe oracle] (by omega) (by omega) (by omega) (by omega)
        (by decide)
      have hsearch := discovered_searched oracle hlength horacle hsearched
      rw [if_pos rfl, if_neg (by simp)]
      simp only [hrun]
      exact hsearch

end Disping.Links
