import Disping.Text.KeyValues

/-! # Blocks of pairs and blocks

What stands between two braces: pairs of strings and blocks with a name, in any order and to any depth.
The tokens of the entries determine them.
-/
namespace Disping.Text

inductive Entries
  | nil
  | pair (key value : List Char) (rest : Entries)
  | block (name : List Char) (inner rest : Entries)
deriving DecidableEq

namespace Entries

def tokens : Entries → List Token
  | nil => []
  | pair key value rest => .string key :: .string value :: rest.tokens
  | block name inner rest => .string name :: .opening :: (inner.tokens ++ .closing :: rest.tokens)

/-- The pairs that stand in no inner block. -/
def pairs : Entries → List (List Char × List Char)
  | nil => []
  | pair key value rest => (key, value) :: rest.pairs
  | block _ _ rest => rest.pairs

/-- The contents of the blocks that stand in no inner block. -/
def blocks : Entries → List Entries
  | nil => []
  | pair _ _ rest => rest.blocks
  | block _ inner rest => inner :: rest.blocks

def append : Entries → Entries → Entries
  | nil, others => others
  | pair key value rest, others => pair key value (rest.append others)
  | block name inner rest, others => block name inner (rest.append others)

def HasKey (key : List Char) (e : Entries) : Prop := ∃ p ∈ e.pairs, p.1 = key

instance (key : List Char) (e : Entries) : Decidable (e.HasKey key) :=
  inferInstanceAs (Decidable (∃ p ∈ e.pairs, _))

/-- Every pair with the key gets the value. -/
def setKey (key v : List Char) : Entries → Entries
  | nil => nil
  | pair k value rest => pair k (if k = key then v else value) (rest.setKey key v)
  | block name inner rest => block name inner (rest.setKey key v)

def setOrAdd (key v : List Char) (e : Entries) : Entries :=
  if e.HasKey key then e.setKey key v else e.append (pair key v nil)

/-- The pair, where the key has none. -/
def absent (key v : List Char) (e : Entries) : Entries := if e.HasKey key then nil else pair key v nil

variable {e e' others : Entries} {ts ts' : List Token} {key v : List Char}

@[simp] theorem tokens_append (e others : Entries) :
    (e.append others).tokens = e.tokens ++ others.tokens := by
  induction e with
  | nil => rfl
  | pair key value rest ih => simp [append, tokens, ih]
  | block name inner rest _ ih => simp [append, tokens, ih]

@[simp] theorem append_nil (e : Entries) : e.append nil = e := by
  induction e with
  | nil => rfl
  | pair key value rest ih => rw [append, ih]
  | block name inner rest _ ih => rw [append, ih]

theorem append_assoc (e e' e'' : Entries) : (e.append e').append e'' = e.append (e'.append e'') := by
  induction e with
  | nil => rfl
  | pair key value rest ih => simp only [append, ih]
  | block name inner rest _ ih => simp only [append, ih]

@[simp] theorem pairs_append (e others : Entries) : (e.append others).pairs = e.pairs ++ others.pairs := by
  induction e with
  | nil => rfl
  | pair key value rest ih => simp [append, pairs, ih]
  | block name inner rest _ ih => simp [append, pairs, ih]

@[simp] theorem blocks_append (e others : Entries) :
    (e.append others).blocks = e.blocks ++ others.blocks := by
  induction e with
  | nil => rfl
  | pair key value rest ih => simp [append, blocks, ih]
  | block name inner rest _ ih => simp [append, blocks, ih]

/-- Entries end at the first brace that closes no block of theirs. -/
theorem tokens_closing_inj (h : e.tokens ++ .closing :: ts = e'.tokens ++ .closing :: ts') :
    e = e' ∧ ts = ts' := by
  induction e generalizing e' ts ts' with
  | nil =>
    cases e' with
    | nil => exact ⟨rfl, (List.cons.inj h).2⟩
    | pair key value rest => cases (List.cons.inj h).1
    | block name inner rest => cases (List.cons.inj h).1
  | pair key value rest ih =>
    cases e' with
    | nil => cases (List.cons.inj h).1
    | pair key' value' rest' =>
      simp only [tokens, List.cons_append, List.cons.injEq, Token.string.injEq] at h
      obtain ⟨rfl, rfl, hrest⟩ := h
      obtain ⟨rfl, rfl⟩ := ih hrest
      exact ⟨rfl, rfl⟩
    | block name inner rest' => cases (List.cons.inj (List.cons.inj h).2).1
  | block name inner rest ih ih' =>
    cases e' with
    | nil => cases (List.cons.inj h).1
    | pair key value rest' => cases (List.cons.inj (List.cons.inj h).2).1
    | block name' inner' rest' =>
      simp only [tokens, List.cons_append, List.append_assoc, List.cons.injEq, Token.string.injEq,
        true_and] at h
      obtain ⟨rfl, hinner⟩ := h
      obtain ⟨rfl, hrest⟩ := ih hinner
      obtain ⟨rfl, rfl⟩ := ih' hrest
      exact ⟨rfl, rfl⟩

/-! Setting a key. -/

theorem setKey_append (e others : Entries) :
    (e.append others).setKey key v = (e.setKey key v).append (others.setKey key v) := by
  induction e with
  | nil => rfl
  | pair k value rest ih => simp only [append, setKey, ih]
  | block name inner rest _ ih => simp only [append, setKey, ih]

theorem hasKey_append : (e.append others).HasKey key ↔ e.HasKey key ∨ others.HasKey key := by
  simp only [HasKey, pairs_append, List.mem_append, or_and_right, exists_or]

theorem hasKey_setKey {k : List Char} (e : Entries) : (e.setKey k v).HasKey key ↔ e.HasKey key := by
  induction e with
  | nil => exact Iff.rfl
  | pair k' value rest ih =>
    simp only [HasKey, setKey, pairs, List.exists_mem_cons_iff] at ih ⊢
    rw [ih]
  | block name inner rest _ ih =>
    simp only [HasKey, setKey, pairs] at ih ⊢
    rw [ih]

theorem setKey_of_not_hasKey (h : ¬ e.HasKey key) : e.setKey key v = e := by
  induction e with
  | nil => rfl
  | pair k value rest ih =>
    simp only [HasKey, pairs, List.exists_mem_cons_iff, not_or] at h ih
    rw [setKey, if_neg h.1, ih h.2]
  | block name inner rest _ ih =>
    simp only [HasKey, pairs] at h ih
    rw [setKey, ih h]

theorem setOrAdd_eq (e : Entries) : e.setOrAdd key v = (e.setKey key v).append (e.absent key v) := by
  unfold setOrAdd absent
  split
  · rw [append_nil]
  · rename_i h
    rw [setKey_of_not_hasKey h]

theorem hasKey_absent {k : List Char} (e : Entries) (hne : key ≠ k) : ¬ (e.absent key v).HasKey k := by
  unfold absent
  split
  · rintro ⟨p, hp, -⟩
    cases hp
  · rintro ⟨p, hp, hk⟩
    obtain rfl := List.mem_singleton.mp hp
    exact hne hk

theorem setKey_absent {k w : List Char} (e : Entries) (hne : key ≠ k) :
    (e.absent key v).setKey k w = e.absent key v :=
  setKey_of_not_hasKey (hasKey_absent e hne)

end Entries

end Disping.Text
