import Mathlib.Data.List.Infix
import Disping.Host.Effects

/-! # Settings an optimizer stores

An optimizer stores a table of values in one key or in each of several keys.
-/
namespace Disping.Tweaks

open Hive Host

inductive SettingValue
  | dword (v : BitVec 32)
  | text (s : String)
deriving DecidableEq

structure Setting where
  name : String
  value : SettingValue
deriving DecidableEq

def Setting.regValue (s : Setting) : RegValue :=
  match s.value with
  | .dword v => regDword v
  | .text t => regString t

def Setting.write (key : String) (s : Setting) : Registry.Write := ⟨key, s.name, s.regValue⟩

theorem Setting.location_write (key : String) (s : Setting) :
    (s.write key).location = (path key, fold s.name) := rfl

/-- SetDword or SetString, as the value's type asks. -/
def applySetting (key : String) (s : Setting) : Win Bool :=
  match s.value with
  | .dword v => setDword key s.name v
  | .text t => setString key s.name t

def applySettings (key : String) (settings : List Setting) : Win (List Bool) :=
  forEach (applySetting key) settings

/-- The writes of a table in each of several keys. -/
def writes (keys : List String) (settings : List Setting) : List Registry.Write :=
  keys.flatMap fun key => settings.map (Setting.write key)

def asAdmin (refusal : String) (body : Win OperationResult) : Win OperationResult := do
  let admin ← isRunningAsAdmin
  if admin then body else pure { success := false, message := refusal }

/-- `text.find(part) != npos` -/
def contains (text part : String) : Bool := decide (part.toList <:+: text.toList)

variable {env : Environment} {V : Registry → Prop}

theorem asAdmin_run (refusal : String) (body : Win OperationResult) (w : World) :
    asAdmin refusal body env w =
      if env.admin then body env w else ({ success := false, message := refusal }, w) :=
  ite_run env w _ _ _

theorem asAdmin_stores {refusal : String} {body : Win OperationResult} {ws : List Registry.Write}
    (admin : env.admin = true) (h : Stores env V body ws) :
    Stores env V (asAdmin refusal body) ws := by
  have hadmin : Reads env V isRunningAsAdmin true := fun w _ => ⟨admin, rfl⟩
  exact hadmin.bind_stores h

theorem asAdmin_refused {refusal : String} {body : Win OperationResult}
    (admin : env.admin = false) : Reads env V (asAdmin refusal body) { success := false, message := refusal } := by
  have hadmin : Reads env V isRunningAsAdmin false := fun w _ => ⟨admin, rfl⟩
  exact hadmin.bind (Reads.pure _)

theorem applySetting_run (ok : env.AllSucceed) (key : String) (s : Setting) (w : World) :
    applySetting key s env w = (true, { w with
      registry := w.registry.apply (s.write key)
      written := w.written ++ [s.write key]
      calls := w.calls + 2 }) := by
  rcases s with ⟨name, v | t⟩
  · exact storeValue_run ok key name (regDword v) w
  · exact storeValue_run ok key name (regString t) w

theorem applySetting_stores (ok : env.AllSucceed) {key : String} {s : Setting}
    (hV : ∀ r, V r → V (r.apply (s.write key))) :
    Stores env V (applySetting key s) [s.write key] := by
  intro w hw
  rw [applySetting_run ok]
  exact ⟨⟨rfl, rfl, rfl⟩, hV _ hw⟩

theorem applySettings_result (ok : env.AllSucceed) (key : String) (settings : List Setting)
    (w : World) : (applySettings key settings env w).1.all id = true := by
  unfold applySettings
  induction settings generalizing w with
  | nil => rfl
  | cons s settings ih =>
    have hfirst : (applySetting key s env w).1 = true := by
      rw [applySetting_run ok]
    simp only [forEach, bind_run, pure_run, List.all_cons, hfirst, ih]
    rfl

theorem applySettings_netsh (ok : env.AllSucceed) (key : String) (settings : List Setting)
    (w : World) : (applySettings key settings env w).2.netsh = w.netsh := by
  unfold applySettings
  induction settings generalizing w with
  | nil => rfl
  | cons s settings ih =>
    simp only [forEach, bind_run, pure_run, ih, applySetting_run ok]

theorem applySettings_stores (ok : env.AllSucceed) {key : String} {settings : List Setting}
    (hV : ∀ s ∈ settings, ∀ r, V r → V (r.apply (s.write key))) :
    Stores env V (applySettings key settings) (settings.map (Setting.write key)) := by
  rw [← List.flatMap_pure_eq_map]
  exact Stores.forEach fun s hs => applySetting_stores ok (hV s hs)

theorem forEach_applySettings_stores (ok : env.AllSucceed) {keys : List String}
    {settings : List Setting}
    (hV : ∀ write ∈ writes keys settings, ∀ r, V r → V (r.apply write)) :
    Stores env V (forEach (fun key => applySettings key settings) keys) (writes keys settings) := by
  refine Stores.forEach fun key hkey => applySettings_stores ok fun s hs => hV _ ?_
  exact List.mem_flatMap.mpr ⟨key, hkey, List.mem_map_of_mem hs⟩

theorem mem_writes {keys : List String} {settings : List Setting} {w : Registry.Write} :
    w ∈ writes keys settings ↔ ∃ key ∈ keys, ∃ s ∈ settings, s.write key = w := by
  simp [writes]

end Disping.Tweaks
