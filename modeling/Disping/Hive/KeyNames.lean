import Mathlib.Data.String.Basic
import Disping.Hive.LetterCase

/-! # Key paths of a hierarchical store with case-insensitive names

A path is written as key names separated by backslashes. Names keep their spelling and
are compared without regard to letter case.
-/
namespace Disping.Hive

/-- A key or value name with its letter case removed. -/
abbrev Name := List Char

/-- The place of a key below the root of the hive. -/
abbrev Path := List Name

/-- The characters of a text that is written out. -/
theorem toList_literal {s : String} {cs : List Char} (h : s = String.ofList cs) : s.toList = cs := by
  rw [h, String.toList_ofList]

def nameOf (cs : List Char) : Name := cs.map upcase

def fold (name : String) : Name := nameOf name.toList

/-- The name of one key as it was spelled at the key's creation. -/
structure KeyName where
  text : String
  nonempty : text.toList ≠ []
  unseparated : '\\' ∉ text.toList
deriving DecidableEq

def KeyName.folded (n : KeyName) : Name := fold n.text

def keyName (cs : List Char) : Option KeyName :=
  if h : cs ≠ [] ∧ '\\' ∉ cs then
    some ⟨String.ofList cs, by simpa using h.1, by simpa using h.2⟩
  else none

/-- The key names of a path; repeated separators count once. -/
def components (subKey : String) : List KeyName :=
  (subKey.toList.splitOn '\\').filterMap keyName

def path (subKey : String) : Path := (components subKey).map KeyName.folded

@[simp] theorem keyName_text (n : KeyName) : keyName n.text.toList = some n := by
  rw [keyName, dif_pos ⟨n.nonempty, n.unseparated⟩]
  simp

theorem fold_literal {s : String} {cs : List Char} (h : s = String.ofList cs) :
    fold s = nameOf cs := by
  rw [fold, toList_literal h]

/-- The place a path leads to, from its characters alone. -/
def pathOf (cs : List Char) : Path :=
  ((cs.splitOn '\\').filter fun part => part ≠ [] ∧ '\\' ∉ part).map nameOf

theorem path_literal {s : String} {cs : List Char} (h : s = String.ofList cs) :
    path s = pathOf cs := by
  rw [path, components, pathOf, toList_literal h]
  induction cs.splitOn '\\' with
  | nil => rfl
  | cons part parts ih =>
    by_cases hvalid : part ≠ [] ∧ '\\' ∉ part
    · have hname : keyName part = some ⟨String.ofList part, by simpa using hvalid.1,
          by simpa using hvalid.2⟩ := dif_pos hvalid
      rw [List.filterMap_cons_some hname, List.map_cons, ih, List.filter_cons_of_pos (by simpa),
        List.map_cons]
      simp [KeyName.folded, fold]
    · have hname : keyName part = none := dif_neg hvalid
      rw [List.filterMap_cons_none hname, ih, List.filter_cons_of_neg (by simpa using hvalid)]

theorem components_child (parent child : String) :
    components (parent ++ "\\" ++ child) = components parent ++ components child := by
  have hchars : (parent ++ "\\" ++ child).toList = parent.toList ++ '\\' :: child.toList := by
    simp
  rw [components, hchars, List.splitOn_append_cons_self, List.filterMap_append]
  rfl

theorem components_text (n : KeyName) : components n.text = [n] := by
  rw [components, List.splitOn_eq_singleton n.unseparated]
  simp

theorem components_entry (parent : String) (n : KeyName) :
    components (parent ++ "\\" ++ n.text) = components parent ++ [n] := by
  rw [components_child, components_text]

theorem path_child (parent child : String) :
    path (parent ++ "\\" ++ child) = path parent ++ path child := by
  rw [path, components_child, List.map_append]
  rfl

theorem path_entry (parent : String) (n : KeyName) :
    path (parent ++ "\\" ++ n.text) = path parent ++ [n.folded] := by
  rw [path, components_entry, List.map_append]
  rfl

end Disping.Hive
