import Disping.Timer.Resolution
import Mathlib.Data.List.DropRight

/-! # Which call sequences balance the timeBeginPeriod requests

A sequence is cut into stretches at its restores. What the restore at the end of a stretch leaves
behind depends on the calls of that stretch alone, as long as the stretches before it balanced.
-/
namespace Disping.Timer

/-- A call on the object, with what its system calls return. -/
inductive TimerCall
  | set (targetMs : ℚ) (o : SetOutcome)
  | restore (o : RestoreOutcome)

namespace TimerCall
variable (available : Bool)

def isSet : TimerCall → Bool
  | set _ _ => true
  | restore _ => false

def apply (t : Timed) : TimerCall → Timed
  | set targetMs o => (setHighResolutionTimer targetMs o t).2
  | restore o => restoreTimerResolution o t

/-- A SetHighResolutionTimer that reports success. -/
def succeeds : TimerCall → Bool
  | set _ o => o.granted available || o.began
  | restore _ => false

/-- The period of the timeBeginPeriod request that the call adds, by the fallback alone. -/
def begun : TimerCall → Option (BitVec 32)
  | set targetMs o => if o.fallsBack available then some (fallbackPeriod targetMs) else none
  | restore _ => none

theorem begun_of_not_succeeds {c : TimerCall} (h : c.succeeds available = false) :
    c.begun available = none := by
  cases c with
  | restore o => rfl
  | set targetMs o =>
    have hb : o.began = false := (Bool.or_eq_false_iff.mp h).2
    simp [begun, SetOutcome.fallsBack, hb]

end TimerCall

def Timed.initial (available : Bool) : Timed := ⟨{ ntAvailable := available }, {}⟩

def runCalls (available : Bool) (calls : List TimerCall) : Timed :=
  calls.foldl TimerCall.apply (.initial available)

theorem runCalls_concat (available : Bool) (calls : List TimerCall) (c : TimerCall) :
    runCalls available (calls ++ [c]) = c.apply (runCalls available calls) := by
  simp [runCalls]

/-- timeEndPeriod has met an outstanding period each time, and a restore has left none. -/
def Balanced (available : Bool) (calls : List TimerCall) : Prop :=
  ∀ before c after, calls = before ++ c :: after →
    let ledger := (runCalls available (before ++ [c])).ledger
    ledger.unmatched = [] ∧ (c.isSet = false → ledger.periods = [])

/-- The calls since the last restore. -/
def sinceRestore (calls : List TimerCall) : List TimerCall := calls.rtakeWhile TimerCall.isSet

/-- The restore `o` takes back what the calls of the stretch requested: nothing succeeded, or one
request was begun, for a period of 1 ms, and it is ended. -/
def Suits (available : Bool) (stretch : List TimerCall) (o : RestoreOutcome) : Prop :=
  (∃ c ∈ stretch, c.succeeds available) →
    stretch.filterMap (TimerCall.begun available) = [1] ∧ o.ended

/-- Every restore of the sequence suits the calls since the one before it. -/
def RestoresSuit (available : Bool) (calls : List TimerCall) : Prop :=
  ∀ before o after, calls = before ++ .restore o :: after →
    Suits available (sinceRestore before) o

/-- What the object and the system hold after a balanced sequence. -/
structure Summary (available : Bool) (stretch : List TimerCall) (t : Timed) : Prop where
  ntAvailable : t.optimizer.ntAvailable = available
  timerSet : t.optimizer.timerSet = stretch.any (TimerCall.succeeds available)
  periods : t.ledger.periods = stretch.filterMap (TimerCall.begun available)
  unmatched : t.ledger.unmatched = []

variable {available : Bool} {stretch calls : List TimerCall} {t : Timed}

theorem Summary.initial : Summary available [] (.initial available) := by
  constructor <;> rfl

theorem Summary.set (h : Summary available stretch t) (targetMs : ℚ) (o : SetOutcome) :
    Summary available (stretch ++ [TimerCall.set targetMs o])
      (TimerCall.apply t (.set targetMs o)) := by
  obtain ⟨hnt, hset, hperiods, hun⟩ := h
  have heffect := setHighResolutionTimer_effect targetMs o t
  rw [← hnt] at hset hperiods ⊢
  constructor
  · exact heffect.ntAvailable
  · refine heffect.timerSet.trans ?_
    rw [hset, List.any_append, List.any_cons, List.any_nil, Bool.or_false]
    rfl
  · refine heffect.periods.trans ?_
    rw [hperiods, List.filterMap_append]
    congr 1
    unfold TimerCall.begun
    split_ifs with hb <;> simp [hb]
  · exact heffect.unmatched.trans hun

theorem Summary.restore (h : Summary available stretch t) (o : RestoreOutcome) :
    ((restoreTimerResolution o t).ledger.unmatched = [] ∧
        (restoreTimerResolution o t).ledger.periods = [] ↔ Suits available stretch o) ∧
      (Suits available stretch o → Summary available [] (restoreTimerResolution o t)) := by
  obtain ⟨hnt, hset, hperiods, hun⟩ := h
  have hany : stretch.any (TimerCall.succeeds available) = true ↔
      ∃ c ∈ stretch, c.succeeds available = true := List.any_eq_true
  unfold restoreTimerResolution Suits
  rw [hset, ← hany]
  by_cases hs : stretch.any (TimerCall.succeeds available) = true
  · -- releasing the NtSetTimerResolution request touches neither list
    have hrelease : ∀ l : Ledger,
        l = (if t.optimizer.ntAvailable then t.ledger.ntRelease o.ntStatus else t.ledger) →
        l.periods = t.ledger.periods ∧ l.unmatched = [] := by
      rintro l rfl
      unfold Ledger.ntRelease
      split_ifs <;> exact ⟨rfl, hun⟩
    obtain ⟨hp, hu⟩ := hrelease _ rfl
    have hclean := Ledger.endPeriod_clean _ 1 o.ended hu
    rw [hp, hperiods] at hclean
    simp only [hs, if_true, true_implies]
    refine ⟨hclean, fun hsuits => ?_⟩
    obtain ⟨hu', hp'⟩ := hclean.mpr hsuits
    exact ⟨hnt, rfl, hp', hu'⟩
  · have hnone : stretch.filterMap (TimerCall.begun available) = [] := by
      rw [List.filterMap_eq_nil_iff]
      intro c hc
      refine TimerCall.begun_of_not_succeeds _ ?_
      by_contra hne
      exact hs (hany.mpr ⟨c, hc, by simpa using hne⟩)
    have hs' : stretch.any (TimerCall.succeeds available) = false := by simpa using hs
    rw [hnone] at hperiods
    rw [hs']
    refine ⟨⟨fun _ h => absurd h Bool.false_ne_true, fun _ => ⟨hun, hperiods⟩⟩, fun _ => ?_⟩
    exact ⟨hnt, hset.trans hs', hperiods, hun⟩

/-- A property of every prefix of a sequence, one call further. -/
theorem prefixes_concat {P : List TimerCall → TimerCall → Prop} {c : TimerCall} :
    (∀ before d after, calls ++ [c] = before ++ d :: after → P before d) ↔
      (∀ before d after, calls = before ++ d :: after → P before d) ∧ P calls c := by
  constructor
  · intro h
    refine ⟨fun before d after he => h before d (after ++ [c]) (by simp [he]), h calls c [] rfl⟩
  · rintro ⟨hall, hlast⟩ before d after he
    rcases List.eq_nil_or_concat after with rfl | ⟨rest, e, rfl⟩
    · obtain ⟨rfl, hd⟩ := List.append_inj' he rfl
      cases hd
      exact hlast
    · have hcut : calls ++ [c] = (before ++ d :: rest) ++ [e] := by simpa using he
      exact hall before d rest (List.append_inj' hcut rfl).1

theorem restoresSuit_iff : RestoresSuit available calls ↔
    ∀ before d after, calls = before ++ d :: after →
      ∀ o, d = .restore o → Suits available (sinceRestore before) o := by
  constructor
  · rintro h before d after he o rfl
    exact h before o after he
  · intro h before o after he
    exact h before _ after he o rfl

theorem balanced_summary (calls : List TimerCall) :
    (Balanced available calls ↔ RestoresSuit available calls) ∧
      (RestoresSuit available calls →
        Summary available (sinceRestore calls) (runCalls available calls)) := by
  rw [restoresSuit_iff]
  induction calls using List.reverseRecOn with
  | nil =>
    refine ⟨⟨fun _ before d after h => by simp at h, fun _ before d after h => by simp at h⟩, ?_⟩
    intro _
    exact Summary.initial
  | append_singleton calls c ih =>
    obtain ⟨hiff, hsum⟩ := ih
    rw [Balanced, prefixes_concat (P := fun before d =>
        let ledger := (runCalls available (before ++ [d])).ledger
        ledger.unmatched = [] ∧ (d.isSet = false → ledger.periods = [])),
      prefixes_concat (P := fun before d =>
        ∀ o, d = .restore o → Suits available (sinceRestore before) o),
      ← Balanced, hiff, runCalls_concat]
    cases c with
    | set targetMs o =>
      have hstretch : sinceRestore (calls ++ [TimerCall.set targetMs o]) =
          sinceRestore calls ++ [TimerCall.set targetMs o] := List.rtakeWhile_concat_pos _ _ _ rfl
      rw [hstretch]
      constructor
      · constructor
        · rintro ⟨h, _⟩
          exact ⟨h, fun o he => by cases he⟩
        · rintro ⟨h, _⟩
          exact ⟨h, ((hsum h).set targetMs o).unmatched, fun he => by cases he⟩
      · rintro ⟨h, _⟩
        exact (hsum h).set targetMs o
    | restore o =>
      have hstretch : sinceRestore (calls ++ [TimerCall.restore o]) = [] :=
        List.rtakeWhile_concat_neg _ _ _ Bool.false_ne_true
      rw [hstretch]
      constructor
      · constructor
        · rintro ⟨h, hu, hp⟩
          refine ⟨h, fun o' he => ?_⟩
          cases he
          exact ((hsum h).restore o).1.mp ⟨hu, hp rfl⟩
        · rintro ⟨h, hs⟩
          obtain ⟨hu, hp⟩ := ((hsum h).restore o).1.mpr (hs o rfl)
          exact ⟨h, hu, fun _ => hp⟩
      · rintro ⟨h, hs⟩
        exact ((hsum h).restore o).2 (hs o rfl)

/-- The requests balance exactly when each restore finds either no success since the restore before
it, or a single fallback request for 1 ms, whose end is accepted. -/
theorem balanced_iff_restoresSuit (available : Bool) (calls : List TimerCall) :
    Balanced available calls ↔ RestoresSuit available calls := (balanced_summary calls).1

/-- The default target where NtSetTimerResolution grants it: the restore ends a period that
timeBeginPeriod never began. -/
theorem nt_set_then_restore_not_balanced :
    ¬ Balanced true [.set (1 / 2) ⟨0, 5000, true⟩, .restore ⟨0, true⟩] := by
  intro h
  obtain ⟨hun, _⟩ := h [.set (1 / 2) ⟨0, 5000, true⟩] (.restore ⟨0, true⟩) [] rfl
  exact absurd hun (by decide)

end Disping.Timer
