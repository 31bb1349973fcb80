import Mathlib.Data.List.ReduceOption
import Disping.Tweaks.NetworkOptimizer
import Disping.Tweaks.AdapterOptimizer

/-! # What the optimizers look at, and that their writes leave it alone

The optimizers enumerate the TCP/IP interfaces and the adapter class and read three values of an
adapter key. A registry is on the footing of another one when these are the same in both.
-/
namespace Disping.Tweaks

open Hive Host

/-- The values of an adapter key that decide whether and how it is tuned. -/
def describingValues : List String := ["DriverDesc", "*IfType", "*MediaType"]

structure Footing (r₀ r : Registry) : Prop where
  keys : r₀.keys ⊆ r.keys
  interfaces : r.subKeys (path interfacesKey) = r₀.subKeys (path interfacesKey)
  adapters : r.subKeys (path rootClass) = r₀.subKeys (path rootClass)
  descriptions : ∀ p n, path rootClass <+: p → n ∈ describingValues.map fold →
    r.values (p, n) = r₀.values (p, n)

/-- A write in a key that is there, or away from both lists of keys, to no describing value. -/
structure Harmless (r₀ : Registry) (w : Registry.Write) : Prop where
  place : r₀.HasKey (path w.key) ∨
    ¬ path interfacesKey <+: path w.key ∧ ¬ path rootClass <+: path w.key
  name : path rootClass <+: path w.key → fold w.name ∉ describingValues.map fold

variable {r₀ r : Registry}

theorem Footing.refl (r₀ : Registry) : Footing r₀ r₀ :=
  ⟨List.Subset.refl _, rfl, rfl, fun _ _ _ _ => rfl⟩

theorem subKeys_apply_of_not_above {q : Path} {w : Registry.Write} (h : ¬ q <+: path w.key) :
    (r.apply w).subKeys q = r.subKeys q :=
  r.subKeys_apply fun _ hn => h ((List.prefix_append _ _).trans hn)

theorem Footing.apply {w : Registry.Write} (h : Footing r₀ r) (hw : Harmless r₀ w) :
    Footing r₀ (r.apply w) where
  keys := List.Subset.trans h.keys (r.keys_subset_applyAll [w])
  interfaces := by
    rcases hw.place with hkey | ⟨haway, -⟩
    · rw [Registry.subKeys, r.keys_apply_of_hasKey (Registry.hasKey_of_keys_subset h.keys hkey)]
      exact h.interfaces
    · rw [subKeys_apply_of_not_above haway, h.interfaces]
  adapters := by
    rcases hw.place with hkey | ⟨-, haway⟩
    · rw [Registry.subKeys, r.keys_apply_of_hasKey (Registry.hasKey_of_keys_subset h.keys hkey)]
      exact h.adapters
    · rw [subKeys_apply_of_not_above haway, h.adapters]
  descriptions := by
    intro p n hp hn
    rw [Registry.values_apply, Function.update_of_ne, h.descriptions p n hp hn]
    intro heq
    cases heq
    exact hw.name hp hn

theorem prefix_getElem? {p q : Path} {i : ℕ} {n : Name} (h : q <+: p) (hq : q[i]? = some n) :
    p[i]? = some n := by
  obtain ⟨rest, rfl⟩ := h
  obtain ⟨hi, -⟩ := List.getElem?_eq_some_iff.mp hq
  rw [List.getElem?_append_left hi, hq]

/-- The adapter class lies below Control, the interfaces below Services. -/
theorem rootClass_control : (path rootClass)[2]? = some (fold "Control") := by
  rw [path_literal (s := rootClass) rfl, fold_literal rfl]
  decide

theorem interfacesKey_services : (path interfacesKey)[2]? = some (fold "Services") := by
  rw [path_literal (s := interfacesKey) rfl, fold_literal rfl]
  decide

theorem not_rootClass_prefix_interface (guid : String) :
    ¬ path rootClass <+: path (interfaceKey guid) := by
  intro h
  have hcontrol := prefix_getElem? h rootClass_control
  have hservices : (path (interfaceKey guid))[2]? = some (fold "Services") := by
    rw [interfaceKey, path_child]
    exact prefix_getElem? (List.prefix_append _ _) interfacesKey_services
  rw [hcontrol] at hservices
  exact absurd hservices (by decide)

/-- The adapter keys an optimizer tunes. -/
def adapterKeyOf (r : Registry) (sk : String) : Option String :=
  (((r.find (classKey sk) "DriverDesc").filter fun v => v.data.length ≤ 1024).bind stringOf).bind
    fun desc => if isVirtualOrVpnAdapter "" desc then none else some (classKey sk)

def adapterKeys (r : Registry) : List String :=
  (((r.subKeys (path rootClass)).map KeyName.text).map (adapterKeyOf r)).reduceOption

def interfaceKeys (r : Registry) : List String :=
  ((r.subKeys (path interfacesKey)).map KeyName.text).map interfaceKey

/-- The adapter keys that describe a wireless adapter. -/
def isWifi (r : Registry) (key : String) : Bool :=
  ((((r.find key "DriverDesc").filter fun v => v.data.length ≤ 1024).bind stringOf).any fun d =>
      wifiKeywords.any fun kw => contains (lowercase d) kw)
    || decide ((((r.find key "*IfType").filter fun v => v.data.length ≤ 4).bind dwordOf) = some 71)
    || decide ((((r.find key "*MediaType").filter fun v => v.data.length ≤ 4).bind dwordOf) = some 16)

theorem find_description {key : String} (h : Footing r₀ r) (hkey : path rootClass <+: path key)
    {name : String} (hname : name ∈ describingValues) : r.find key name = r₀.find key name :=
  h.descriptions _ _ hkey (List.mem_map_of_mem hname)

theorem rootClass_prefix_classKey (sk : String) : path rootClass <+: path (classKey sk) := by
  rw [classKey, path_child]
  exact List.prefix_append _ _

/-- A key that is tuned has a description the guard's test lets through. -/
theorem mem_adapterKeys {key : String} (h : key ∈ adapterKeys r) :
    ∃ n ∈ r.subKeys (path rootClass), key = classKey n.text ∧
      ∃ desc, ((r.find key "DriverDesc").filter fun v => v.data.length ≤ 1024).bind stringOf =
        some desc ∧ isVirtualOrVpnAdapter "" desc = false := by
  rw [adapterKeys, List.reduceOption_mem_iff, List.map_map] at h
  obtain ⟨n, hn, hkey⟩ := List.mem_map.mp h
  obtain ⟨desc, hdesc, hplain⟩ := Option.bind_eq_some_iff.mp hkey
  split at hplain
  · cases hplain
  · rename_i hvirtual
    cases hplain
    exact ⟨n, hn, rfl, desc, hdesc, eq_false_of_ne_true hvirtual⟩

theorem hasKey_adapter {key : String} (h : key ∈ adapterKeys r) :
    r.HasKey (path key) ∧ path rootClass <+: path key := by
  obtain ⟨n, hn, rfl, -⟩ := mem_adapterKeys h
  refine ⟨?_, rootClass_prefix_classKey _⟩
  rw [classKey, path_entry]
  exact r.hasKey_of_mem (r.mem_subKeys.mp hn)

theorem hasKey_interface {key : String} (h : key ∈ interfaceKeys r) :
    r.HasKey (path key) ∧ ¬ path rootClass <+: path key := by
  rw [interfaceKeys, List.map_map] at h
  obtain ⟨n, hn, rfl⟩ := List.mem_map.mp h
  refine ⟨?_, not_rootClass_prefix_interface _⟩
  simp only [Function.comp, interfaceKey]
  rw [path_entry]
  exact r.hasKey_of_mem (r.mem_subKeys.mp hn)

/-- Writes below adapter keys, to other values than those that describe the adapter. -/
theorem harmless_adapter {keys : List String} {settings : List Setting} {w : Registry.Write}
    (hkeys : keys ⊆ adapterKeys r₀)
    (hnames : ∀ s ∈ settings, fold s.name ∉ describingValues.map fold)
    (h : w ∈ writes keys settings) : Harmless r₀ w := by
  obtain ⟨key, hkey, s, hs, rfl⟩ := mem_writes.mp h
  exact ⟨Or.inl (hasKey_adapter (hkeys hkey)).1, fun _ => hnames s hs⟩

theorem harmless_interface {settings : List Setting} {w : Registry.Write}
    (h : w ∈ writes (interfaceKeys r₀) settings) : Harmless r₀ w := by
  obtain ⟨key, hkey, s, -, rfl⟩ := mem_writes.mp h
  obtain ⟨hhas, haway⟩ := hasKey_interface hkey
  exact ⟨Or.inl hhas, fun hp => absurd hp haway⟩

/-- A key that lies below neither list. -/
def Away (key : String) : Prop :=
  ¬ path interfacesKey <+: path key ∧ ¬ path rootClass <+: path key

instance (key : String) : Decidable (Away key) := inferInstanceAs (Decidable (_ ∧ _))

theorem harmless_away {key : String} (s : Setting) (h : Away key) : Harmless r₀ (s.write key) :=
  ⟨Or.inr h, fun hp => absurd hp h.2⟩

end Disping.Tweaks
