import Disping.Host.Ensures
import Disping.Tweaks.Settings

/-! # Stores that may fail

Which stores of a sequence succeed is decided by the environment and the number of the first call
alone: a store whose key does not open takes one call, any other takes two.
-/
namespace Disping.Tweaks

open Hive Host

/-- Whether the store that starts with call `n` succeeds, and the call after it. -/
def attempt (env : Environment) (n : ℕ) : Bool × ℕ :=
  if env.succeeds n then (env.succeeds (n + 1), n + 2) else (false, n + 1)

/-- The stores of a sequence with their outcomes. -/
def attempts (env : Environment) : ℕ → List Registry.Write → List (Registry.Write × Bool)
  | _, [] => []
  | n, w :: ws => (w, (attempt env n).1) :: attempts env (attempt env n).2 ws

def callsAfter (env : Environment) : ℕ → List Registry.Write → ℕ
  | n, [] => n
  | n, _ :: ws => callsAfter env (attempt env n).2 ws

/-- The values that the successful stores set. -/
def made (ps : List (Registry.Write × Bool)) : List (Location × RegValue) :=
  (ps.filter Prod.snd).map fun p => p.1.binding

variable {env : Environment} {w w' w'' : World} {ws vs : List Registry.Write}

theorem attempts_append (env : Environment) (n : ℕ) (ws vs : List Registry.Write) :
    attempts env n (ws ++ vs) = attempts env n ws ++ attempts env (callsAfter env n ws) vs := by
  induction ws generalizing n with
  | nil => rfl
  | cons w ws ih => simp [attempts, callsAfter, ih]

theorem callsAfter_append (env : Environment) (n : ℕ) (ws vs : List Registry.Write) :
    callsAfter env n (ws ++ vs) = callsAfter env (callsAfter env n ws) vs := by
  induction ws generalizing n with
  | nil => rfl
  | cons w ws ih => exact ih _

theorem map_fst_attempts (env : Environment) (n : ℕ) (ws : List Registry.Write) :
    (attempts env n ws).map Prod.fst = ws := by
  induction ws generalizing n with
  | nil => rfl
  | cons w ws ih => rw [attempts, List.map_cons, ih]

theorem made_append (ps qs : List (Registry.Write × Bool)) :
    made (ps ++ qs) = made ps ++ made qs := by
  simp [made]

theorem mem_made {ps : List (Registry.Write × Bool)} {loc : Location} {v : RegValue} :
    (loc, v) ∈ made ps ↔ ∃ p ∈ ps, p.2 = true ∧ p.1.location = loc ∧ p.1.value = v := by
  unfold made
  rw [List.mem_map]
  constructor
  · rintro ⟨p, hp, hbinding⟩
    obtain ⟨hmem, hdone⟩ := List.mem_filter.mp hp
    exact ⟨p, hmem, hdone, congrArg Prod.fst hbinding, congrArg Prod.snd hbinding⟩
  · rintro ⟨p, hmem, hdone, rfl, rfl⟩
    exact ⟨p, List.mem_filter.mpr ⟨hmem, hdone⟩, rfl⟩

theorem overlay_made_of_ne {ps : List (Registry.Write × Bool)} {loc : Location}
    {f : Location → Option RegValue} (h : ∀ p ∈ ps, p.2 = true → p.1.location ≠ loc) :
    overlay f (made ps) loc = f loc := by
  rw [overlay_apply]
  cases hlast : lastBinding (made ps) loc with
  | none => rfl
  | some v =>
    obtain ⟨p, hp, hdone, hloc, -⟩ := mem_made.mp (mem_of_lastBinding hlast)
    exact absurd hloc (h p hp hdone)

/-- The second world is the first one after trying the stores. -/
structure Tried (env : Environment) (ws : List Registry.Write) (w w' : World) : Prop where
  calls : w'.calls = callsAfter env w.calls ws
  values : w'.registry.values = overlay w.registry.values (made (attempts env w.calls ws))

theorem Tried.refl (env : Environment) (w : World) : Tried env [] w w := ⟨rfl, rfl⟩

theorem Tried.trans (h : Tried env ws w w') (h' : Tried env vs w' w'') :
    Tried env (ws ++ vs) w w'' := by
  constructor
  · rw [h'.calls, h.calls, callsAfter_append]
  · rw [h'.values, h.values, h.calls, attempts_append, made_append, overlay, overlay, overlay,
      List.foldl_append]

/-- One store: it reports its outcome, and sets the value exactly when it succeeds. -/
theorem storeValue_tried (env : Environment) (key name : String) (value : RegValue) (w : World) :
    (storeValue key name value env w).1 = (attempt env w.calls).1 ∧
      Tried env [⟨key, name, value⟩] w (storeValue key name value env w).2 := by
  cases hopen : env.succeeds w.calls with
  | false =>
    have hrun : storeValue key name value env w =
        (false, { w with calls := w.calls + 1 }) := by
      simp [storeValue, regCreateKeyEx, Host.call, hopen]
    have hattempt : attempt env w.calls = (false, w.calls + 1) := by simp [attempt, hopen]
    rw [hrun, hattempt]
    refine ⟨rfl, ?_, ?_⟩
    · simp [callsAfter, hattempt]
    · simp [attempts, hattempt, made, overlay]
  | true =>
    have hattempt : attempt env w.calls = (env.succeeds (w.calls + 1), w.calls + 2) := by
      simp [attempt, hopen]
    rw [hattempt]
    cases hset : env.succeeds (w.calls + 1) with
    | false =>
      have hrun : storeValue key name value env w =
          (false, { w with
            registry := w.registry.create (components key)
            calls := w.calls + 2 }) := by
        simp [storeValue, regCreateKeyEx, regSetValueEx, Host.call, hopen, hset]
      rw [hrun]
      refine ⟨rfl, ?_, ?_⟩
      · simp [callsAfter, hattempt]
      · simp [attempts, hattempt, hset, made, overlay]
    | true =>
      have hrun : storeValue key name value env w =
          (true, { w with
            registry := w.registry.apply ⟨key, name, value⟩
            written := w.written ++ [⟨key, name, value⟩]
            calls := w.calls + 2 }) := by
        simp [storeValue, regCreateKeyEx, regSetValueEx, Host.call, hopen, hset, Registry.apply]
      rw [hrun]
      refine ⟨rfl, ?_, ?_⟩
      · simp [callsAfter, hattempt]
      · simp [attempts, hattempt, hset, made, overlay, Registry.values_apply,
          Registry.Write.binding]

theorem applySetting_tried (env : Environment) (key : String) (s : Setting) (w : World) :
    (applySetting key s env w).1 = (attempt env w.calls).1 ∧
      Tried env [s.write key] w (applySetting key s env w).2 := by
  rcases s with ⟨name, v | t⟩
  · exact storeValue_tried env key name (regDword v) w
  · exact storeValue_tried env key name (regString t) w

theorem applySettings_tried (env : Environment) (key : String) (settings : List Setting)
    (w : World) :
    (applySettings key settings env w).1 =
        (attempts env w.calls (settings.map (Setting.write key))).map Prod.snd ∧
      Tried env (settings.map (Setting.write key)) w (applySettings key settings env w).2 := by
  unfold applySettings
  induction settings generalizing w with
  | nil => exact ⟨rfl, Tried.refl env w⟩
  | cons s settings ih =>
    obtain ⟨hfirst, htried⟩ := applySetting_tried env key s w
    obtain ⟨hrest, htail⟩ := ih (applySetting key s env w).2
    simp only [forEach, bind_run, pure_run, List.map_cons]
    refine ⟨?_, htried.trans htail⟩
    rw [hfirst, hrest, htried.calls]
    rfl

/-- The tables of several keys, tried key by key. -/
def keyAttempts (env : Environment) (settings : List Setting) :
    ℕ → List String → List (List (Registry.Write × Bool))
  | _, [] => []
  | n, key :: keys =>
    let ws := settings.map (Setting.write key)
    attempts env n ws :: keyAttempts env settings (callsAfter env n ws) keys

theorem flatten_keyAttempts (env : Environment) (settings : List Setting) (n : ℕ)
    (keys : List String) :
    (keyAttempts env settings n keys).flatten = attempts env n (writes keys settings) := by
  induction keys generalizing n with
  | nil => rfl
  | cons key keys ih =>
    rw [keyAttempts, List.flatten_cons, ih, ← attempts_append]
    rfl

theorem forEach_applySettings_tried (env : Environment) (settings : List Setting)
    (keys : List String) (w : World) :
    (forEach (fun key => applySettings key settings) keys env w).1 =
        (keyAttempts env settings w.calls keys).map (List.map Prod.snd) ∧
      Tried env (writes keys settings) w
        (forEach (fun key => applySettings key settings) keys env w).2 := by
  induction keys generalizing w with
  | nil => exact ⟨rfl, Tried.refl env w⟩
  | cons key keys ih =>
    obtain ⟨hfirst, htried⟩ := applySettings_tried env key settings w
    obtain ⟨hrest, htail⟩ := ih (applySettings key settings env w).2
    simp only [forEach, bind_run, pure_run]
    refine ⟨?_, ?_⟩
    · rw [hfirst, hrest, htried.calls]
      rfl
    · rw [writes, List.flatMap_cons]
      exact htried.trans htail

end Disping.Tweaks
