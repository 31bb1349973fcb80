import Mathlib.Data.List.Nodup
import Disping.Hive.KeyNames
import Disping.Hive.Overlay

/-! # A hive of keys and typed values

Every key but the root has its parent in the hive, no two keys of one parent differ only
in letter case, and a value belongs to a key. Values are looked up by key and name, keys are
enumerated with the spelling they were created under.
-/
namespace Disping.Hive

inductive ValueType
  | sz
  | expandSz
  | dword
  | other (code : ℕ)
deriving DecidableEq

/-- A stored value; each character of `data` stands for one byte. -/
structure RegValue where
  type : ValueType
  data : List Char
deriving DecidableEq

/-- A key, by its parent and its own name. -/
structure KeyEntry where
  parent : Path
  name : KeyName
deriving DecidableEq

def KeyEntry.path (k : KeyEntry) : Path := k.parent ++ [k.name.folded]

abbrev Location := Path × Name

structure Registry where
  keys : List KeyEntry
  values : Location → Option RegValue
  unique : (keys.map KeyEntry.path).Nodup
  rooted : ∀ k ∈ keys, k.parent = [] ∨ k.parent ∈ keys.map KeyEntry.path
  owned : ∀ p n, values (p, n) ≠ none → p = [] ∨ p ∈ keys.map KeyEntry.path

namespace Registry

def empty : Registry where
  keys := []
  values _ := none
  unique := List.nodup_nil
  rooted := by simp
  owned := by simp

variable (r : Registry)

def HasKey (p : Path) : Prop := p = [] ∨ p ∈ r.keys.map KeyEntry.path

instance (p : Path) : Decidable (r.HasKey p) := inferInstanceAs (Decidable (_ ∨ _))

/-- The names of the keys right below a key, in the order they are enumerated. -/
def subKeys (p : Path) : List KeyName :=
  (r.keys.filter fun k => k.parent = p).map KeyEntry.name

def find (key name : String) : Option RegValue := r.values (path key, fold name)

theorem mem_subKeys {p : Path} {n : KeyName} : n ∈ r.subKeys p ↔ ⟨p, n⟩ ∈ r.keys := by
  simp only [subKeys, List.mem_map, List.mem_filter, decide_eq_true_eq]
  constructor
  · rintro ⟨k, ⟨hk, rfl⟩, rfl⟩
    exact hk
  · intro h
    exact ⟨_, ⟨h, rfl⟩, rfl⟩

theorem hasKey_of_mem {k : KeyEntry} (h : k ∈ r.keys) : r.HasKey k.path :=
  Or.inr (List.mem_map_of_mem h)

/-- One key for each path. -/
theorem eq_of_path {k l : KeyEntry} (hk : k ∈ r.keys) (hl : l ∈ r.keys) (h : k.path = l.path) :
    k = l :=
  List.inj_on_of_nodup_map r.unique hk hl h

theorem hasKey_dropLast {p : Path} (h : r.HasKey p) : r.HasKey p.dropLast := by
  rcases h with rfl | h
  · exact Or.inl rfl
  · obtain ⟨k, hk, rfl⟩ := List.mem_map.mp h
    rw [KeyEntry.path, List.dropLast_concat]
    exact r.rooted k hk

theorem hasKey_of_append {p q : Path} (h : r.HasKey (p ++ q)) : r.HasKey p := by
  induction q using List.reverseRecOn with
  | nil => simpa using h
  | append_singleton q n ih =>
    apply ih
    have hlast := r.hasKey_dropLast h
    rwa [← List.append_assoc, List.dropLast_concat] at hlast

theorem exists_subKey {p : Path} {n : Name} (h : r.HasKey (p ++ [n])) :
    ∃ m ∈ r.subKeys p, m.folded = n := by
  rcases h with hnil | h
  · simp at hnil
  · obtain ⟨k, hk, hpath⟩ := List.mem_map.mp h
    obtain ⟨rfl, hname⟩ := List.append_inj' hpath rfl
    exact ⟨k.name, r.mem_subKeys.mpr hk, (List.cons.inj hname).1⟩

/-- The key `name` of a parent that is there, unless it is there already. -/
def addKey (p : Path) (n : KeyName) : Registry :=
  if h : r.HasKey p ∧ ¬ r.HasKey (p ++ [n.folded]) then
    { r with
      keys := r.keys ++ [⟨p, n⟩]
      unique := by
        rw [List.map_append, List.map_singleton]
        refine List.nodup_append.mpr ⟨r.unique, by simp, ?_⟩
        rintro a ha b hb rfl
        rw [List.mem_singleton.mp hb] at ha
        exact h.2 (Or.inr ha)
      rooted := by
        intro k hk
        rw [List.map_append, List.mem_append]
        rcases List.mem_append.mp hk with hk | hk
        · exact (r.rooted k hk).imp_right Or.inl
        · rw [List.mem_singleton.mp hk]
          exact h.1.imp_right Or.inl
      owned := by
        intro q n hv
        rw [List.map_append, List.mem_append]
        exact (r.owned q n hv).imp_right Or.inl }
  else r

/-- The keys named one below the other, those missing added. -/
def createFrom (r : Registry) (p : Path) : List KeyName → Registry
  | [] => r
  | n :: ns => createFrom (r.addKey p n) (p ++ [n.folded]) ns

def create (ns : List KeyName) : Registry := r.createFrom [] ns

/-- The value, in a key that is there. -/
def setValue (p : Path) (n : Name) (v : RegValue) : Registry :=
  if h : r.HasKey p then
    { r with
      values := Function.update r.values (p, n) (some v)
      owned := by
        intro q m hv
        by_cases heq : (q, m) = (p, n)
        · cases heq
          exact h
        · rw [Function.update_of_ne heq] at hv
          exact r.owned q m hv }
  else r

def deleteValue (p : Path) (n : Name) : Registry where
  keys := r.keys
  values := Function.update r.values (p, n) none
  unique := r.unique
  rooted := r.rooted
  owned := by
    intro q m hv
    by_cases heq : (q, m) = (p, n)
    · rw [heq, Function.update_self] at hv
      exact absurd rfl hv
    · rw [Function.update_of_ne heq] at hv
      exact r.owned q m hv

/-- A key with its values, unless it still has subkeys. -/
def deleteKey (p : Path) : Registry :=
  if h : r.subKeys p = [] then
    { keys := r.keys.filter fun k => k.path ≠ p
      values := fun loc => if loc.1 = p then none else r.values loc
      unique := r.unique.sublist (List.filter_sublist.map _)
      rooted := by
        intro k hk
        have hmem := (List.mem_filter.mp hk).1
        rcases r.rooted k hmem with hroot | hparent
        · exact Or.inl hroot
        · right
          obtain ⟨l, hl, hlk⟩ := List.mem_map.mp hparent
          refine List.mem_map.mpr ⟨l, List.mem_filter.mpr ⟨hl, ?_⟩, hlk⟩
          -- a parent of a key that stays has a subkey, so it is not the one deleted
          have hne : l.path ≠ p := by
            rintro rfl
            have hsub : k.name ∈ r.subKeys l.path := r.mem_subKeys.mpr (hlk ▸ hmem)
            simp [h] at hsub
          simpa using hne
      owned := by
        intro q n hv
        split at hv
        · exact absurd rfl hv
        · rename_i hne
          refine (r.owned q n hv).imp_right fun hq => ?_
          obtain ⟨l, hl, rfl⟩ := List.mem_map.mp hq
          exact List.mem_map_of_mem (List.mem_filter.mpr ⟨hl, by simpa using hne⟩) }
  else r

end Registry
end Disping.Hive
