import Disping.Host.Ensures
import Disping.Rollback.Snapshot

/-! # RegistryUtil as a store

Any Windows call may fail. The answers are honest all the same: a value is set or deleted exactly
when the answer says so, and what is read is what the last acknowledged request left.
-/
namespace Disping.Program

open Hive Host Rollback

def valueExists (subKey valueName : String) : Win Bool := do
  let opened ← regOpenKeyEx subKey
  if opened then
    let value ← regQueryValueEx subKey valueName
    pure value.isSome
  else pure false

inductive Request
  | setDword (subKey valueName : String) (value : BitVec 32)
  | setString (subKey valueName value : String)
  | deleteValue (subKey valueName : String)
  | getDword (subKey valueName : String)
  | getString (subKey valueName : String)
  | valueExists (subKey valueName : String)

inductive Answer
  | success (ok : Bool)
  | dword (value : Option (BitVec 32))
  | string (value : Option String)

def Request.serve : Request → Win Answer
  | setDword subKey valueName value => Answer.success <$> Host.setDword subKey valueName value
  | setString subKey valueName value => Answer.success <$> Host.setString subKey valueName value
  | deleteValue subKey valueName => Answer.success <$> Host.deleteValue subKey valueName
  | getDword subKey valueName => Answer.dword <$> Host.getDword subKey valueName
  | getString subKey valueName => Answer.string <$> Host.getString subKey valueName
  | valueExists subKey valueName => Answer.success <$> Program.valueExists subKey valueName

section Store

/-- What a registry is for the program. -/
abbrev Store := Location → Option RegValue

variable (s : Store)

/-- The store after a request with its answer. -/
def Request.acknowledged : Request → Answer → Store
  | setDword subKey valueName value, .success true =>
    Function.update s (path subKey, fold valueName) (some (regDword value))
  | setString subKey valueName value, .success true =>
    Function.update s (path subKey, fold valueName) (some (regString value))
  | deleteValue subKey valueName, .success true => Function.update s (path subKey, fold valueName) none
  | _, _ => s

/-- An answer that tells something tells what the store holds. -/
def Request.Agrees : Request → Answer → Prop
  | getDword subKey valueName, .dword (some v) =>
    ∃ x, s (path subKey, fold valueName) = some x ∧ x.data.length ≤ 4 ∧ dwordOf x = some v
  | getString subKey valueName, .string (some v) =>
    ∃ x, s (path subKey, fold valueName) = some x ∧ x.data.length ≤ 1024 ∧ stringOf x = some v
  | deleteValue subKey valueName, .success true | valueExists subKey valueName, .success true =>
    (s (path subKey, fold valueName)).isSome
  | _, _ => True

/-- The answers explain the store at the end. -/
def Explains : Store → List (Request × Answer) → Store → Prop
  | s, [], s' => s = s'
  | s, (r, a) :: rest, s' => r.Agrees s a ∧ Explains (r.acknowledged s a) rest s'

end Store

section Serving
variable {env : Environment} {w : World} {subKey valueName : String}

theorem map_run {α β : Type} (f : α → β) (m : Win α) : (f <$> m) env w = (f (m env w).1, (m env w).2) := rfl

theorem storeValue_answer (value : RegValue) :
    (storeValue subKey valueName value env w).2.registry.values =
      if (storeValue subKey valueName value env w).1 then
        Function.update w.registry.values (path subKey, fold valueName) (some value)
      else w.registry.values := by
  cases hcreate : env.succeeds w.calls with
  | false => simp [storeValue, regCreateKeyEx, call, hcreate]
  | true =>
    cases hset : env.succeeds (w.calls + 1) with
    | false => simp [storeValue, regCreateKeyEx, regSetValueEx, call, hcreate, hset, Registry.values_create]
    | true =>
      simp [storeValue, regCreateKeyEx, regSetValueEx, call, hcreate, hset, Registry.values_create,
        Registry.values_setValue _ _ _ (w.registry.hasKey_create subKey)]

theorem deleteValue_answer :
    (deleteValue subKey valueName env w).2.registry.values =
        (if (deleteValue subKey valueName env w).1 then
          Function.update w.registry.values (path subKey, fold valueName) none
        else w.registry.values) ∧
      ((deleteValue subKey valueName env w).1 = true →
        (w.registry.values (path subKey, fold valueName)).isSome = true) := by
  have hopened : ∀ b, env.succeeds w.calls = b → (regOpenKeyEx subKey env w) =
      (b && decide (w.registry.HasKey (path subKey)), { w with calls := w.calls + 1 }) := by
    intro b hb
    cases b <;> simp [regOpenKeyEx, call, hb]
  rw [deleteValue, bind_run, hopened _ rfl]
  cases hkey : env.succeeds w.calls && decide (w.registry.HasKey (path subKey)) with
  | false => simp
  | true =>
    cases hdelete : env.succeeds (w.calls + 1) with
    | false => simp [regDeleteValue, call, hdelete]
    | true =>
      cases hheld : w.registry.values (path subKey, fold valueName) with
      | none => simp [regDeleteValue, call, hdelete, Registry.find, hheld]
      | some x => simp [regDeleteValue, call, hdelete, Registry.find, hheld, Registry.deleteValue]

theorem queryValue_answer (size : ℕ) :
    (∀ x, (queryValue subKey valueName size env w).1 = some x →
        w.registry.values (path subKey, fold valueName) = some x ∧ x.data.length ≤ size) ∧
      (queryValue subKey valueName size env w).2.registry = w.registry := by
  have hensures : Ensures env (fun u => u.registry = w.registry) (queryValue subKey valueName size)
      fun v => ∀ x, v = some x →
        w.registry.values (path subKey, fold valueName) = some x ∧ x.data.length ≤ size := by
    refine Ensures.queryValue (fun _ _ h => h) nofun fun u hu x hx => ?_
    obtain ⟨hfind, hsize⟩ := Option.filter_eq_some_iff.mp hx
    rw [← hu]
    exact ⟨hfind, of_decide_eq_true hsize⟩
  exact hensures w rfl

theorem valueExists_answer :
    ((valueExists subKey valueName env w).1 = true →
        (w.registry.values (path subKey, fold valueName)).isSome = true) ∧
      (valueExists subKey valueName env w).2.registry = w.registry := by
  have hensures : Ensures env (fun u => u.registry = w.registry) (valueExists subKey valueName)
      fun found => found = true → (w.registry.values (path subKey, fold valueName)).isSome = true := by
    refine Keeps.bind (Ensures.regOpenKeyEx (fun _ _ h => h) subKey) fun opened => ?_
    refine Ensures.ite (fun _ => ?_) fun _ => Ensures.pure nofun
    refine Ensures.bind (P := fun v => v.isSome = true →
      (w.registry.values (path subKey, fold valueName)).isSome = true) ?_ fun v hv => Ensures.pure hv
    refine Keeps.bind (Ensures.call fun _ _ h => h) fun ok => ?_
    refine Ensures.ite (fun _ => ?_) fun _ => Ensures.pure nofun
    exact fun u hu => ⟨fun hsome => hu ▸ hsome, hu⟩
  exact hensures w rfl

/-- One request. -/
theorem serve_answer (r : Request) (w : World) :
    r.Agrees w.registry.values (r.serve env w).1 ∧
      (r.serve env w).2.registry.values = r.acknowledged w.registry.values (r.serve env w).1 := by
  cases r with
  | setDword subKey valueName value =>
    have hstored := @storeValue_answer env w subKey valueName (regDword value)
    simp only [Request.serve, map_run, setDword, hstored]
    cases (storeValue subKey valueName (regDword value) env w).1 with
    | false => exact ⟨trivial, rfl⟩
    | true => exact ⟨trivial, rfl⟩
  | setString subKey valueName value =>
    have hstored := @storeValue_answer env w subKey valueName (regString value)
    simp only [Request.serve, map_run, setString, hstored]
    cases (storeValue subKey valueName (regString value) env w).1 with
    | false => exact ⟨trivial, rfl⟩
    | true => exact ⟨trivial, rfl⟩
  | deleteValue subKey valueName =>
    obtain ⟨hdeleted, hheld⟩ := @deleteValue_answer env w subKey valueName
    simp only [Request.serve, map_run, hdeleted]
    cases hdone : (deleteValue subKey valueName env w).1 with
    | false => exact ⟨trivial, rfl⟩
    | true => exact ⟨hheld hdone, rfl⟩
  | getDword subKey valueName =>
    obtain ⟨hvalue, hregistry⟩ := @queryValue_answer env w subKey valueName 4
    simp only [Request.serve, map_run, getDword, bind_run, pure_run, hregistry]
    cases hread : (queryValue subKey valueName 4 env w).1 with
    | none => exact ⟨trivial, rfl⟩
    | some x =>
      obtain ⟨hfound, hsize⟩ := hvalue x hread
      rw [Option.bind_some]
      cases hdword : dwordOf x with
      | none => exact ⟨trivial, rfl⟩
      | some v => exact ⟨⟨x, hfound, hsize, hdword⟩, rfl⟩
  | getString subKey valueName =>
    obtain ⟨hvalue, hregistry⟩ := @queryValue_answer env w subKey valueName 1024
    simp only [Request.serve, map_run, getString, bind_run, pure_run, hregistry]
    cases hread : (queryValue subKey valueName 1024 env w).1 with
    | none => exact ⟨trivial, rfl⟩
    | some x =>
      obtain ⟨hfound, hsize⟩ := hvalue x hread
      rw [Option.bind_some]
      cases hstring : stringOf x with
      | none => exact ⟨trivial, rfl⟩
      | some v => exact ⟨⟨x, hfound, hsize, hstring⟩, rfl⟩
  | valueExists subKey valueName =>
    obtain ⟨hheld, hregistry⟩ := @valueExists_answer env w subKey valueName
    simp only [Request.serve, map_run, hregistry]
    cases hdone : (valueExists subKey valueName env w).1 with
    | false => exact ⟨trivial, rfl⟩
    | true => exact ⟨hheld hdone, rfl⟩

end Serving

end Disping.Program
