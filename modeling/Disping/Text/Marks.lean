import Disping.Text.Entries
import Disping.Text.PairEditing

/-! # Entries with the strings that are written over

A string is kept with what is written over it, and a block with the pairs that are put before its closing
brace. What a text says before and after the edits is read from the marked entries.
-/
namespace Disping.Text

/-- A string of the file, and the one that is written over it. -/
@[ext] structure Cell where
  text : List Char
  new : Option (List Char)
deriving DecidableEq

namespace Cell

def kept (text : List Char) : Cell := ⟨text, none⟩

def written (c : Cell) : List Char := c.new.getD c.text

/-- The string reads as before. -/
def Stays (c : Cell) : Prop := c.written = c.text

/-- What is written over the string, if anything, is one of the values. -/
def Takes (vs : List (List Char)) (c : Cell) : Prop := ∀ v, c.new = some v → v ∈ vs

@[simp] theorem written_kept (text : List Char) : (kept text).written = text := rfl

theorem takes_kept (vs : List (List Char)) (text : List Char) : (kept text).Takes vs := by
  intro v h
  cases h

theorem takes_new {vs : List (List Char)} {v : List Char} (hv : v ∈ vs) (text : List Char) :
    Takes vs ⟨text, some v⟩ := by
  intro w h
  obtain rfl := Option.some.inj h
  exact hv

/-- A string reads as something that is no value where it read so before. -/
theorem written_eq_iff {vs : List (List Char)} {c : Cell} (h : c.Takes vs) {text : List Char}
    (hother : text ∉ vs) : c.written = text ↔ c = kept text := by
  obtain ⟨old, new⟩ := c
  cases new with
  | none => simp [written, kept]
  | some v =>
    refine iff_of_false (fun heq => ?_) (by simp [kept])
    obtain rfl : v = text := heq
    exact hother (h v rfl)

end Cell

/-- A pair that is put before a closing brace. -/
abbrev Added := Cell × Cell

inductive MarkedToken
  | string (c : Cell)
  | opening
  | closing (added : List Added)
deriving DecidableEq

namespace MarkedToken

def kept : Token → MarkedToken
  | .string s => .string (.kept s)
  | .opening => .opening
  | .closing => .closing []

def before : MarkedToken → Token
  | string c => .string c.text
  | opening => .opening
  | closing _ => .closing

def written : MarkedToken → Token
  | string c => .string c.written
  | opening => .opening
  | closing _ => .closing

def pairs (added : List Added) : List MarkedToken := added.flatMap fun p => [string p.1, string p.2]

/-- The tokens in the place of a token. -/
def after : MarkedToken → List Token
  | closing added => (pairs added).map written ++ [.closing]
  | t => [t.written]

/-- Pairs that are put before a closing brace, which stands first. -/
def attach (added : List Added) : List MarkedToken → List MarkedToken
  | closing _ :: ms => closing added :: ms
  | ms => ms

/-- No pair stands before the brace. -/
def Plain (t : MarkedToken) : Prop := ∀ added, t = closing added → added = []

/-- What is written over the strings is one of the values. -/
def Takes (vs : List (List Char)) : MarkedToken → Prop
  | string c => c.Takes vs
  | opening => True
  | closing added => ∀ p ∈ added, p.1.Takes vs ∧ p.2.Takes vs

@[simp] theorem before_kept (t : Token) : (kept t).before = t := by cases t <;> rfl

@[simp] theorem written_kept (t : Token) : (kept t).written = t := by cases t <;> rfl

@[simp] theorem map_before_kept (ts : List Token) : (ts.map kept).map before = ts := by
  induction ts with
  | nil => rfl
  | cons t ts ih => rw [List.map_cons, List.map_cons, ih, before_kept]

@[simp] theorem map_written_kept (ts : List Token) : (ts.map kept).map written = ts := by
  induction ts with
  | nil => rfl
  | cons t ts ih => rw [List.map_cons, List.map_cons, ih, written_kept]

theorem plain_string (c : Cell) : (string c).Plain := by
  intro added h
  cases h

theorem plain_kept (ts : List Token) : ∀ t ∈ ts.map kept, t.Plain := by
  intro t ht added h
  obtain ⟨x, -, rfl⟩ := List.mem_map.mp ht
  cases x with
  | string s => cases h
  | opening => cases h
  | closing =>
    cases h
    rfl

/-- Without pairs before their braces tokens are written one for one. -/
theorem flatMap_after {ms : List MarkedToken} (h : ∀ t ∈ ms, t.Plain) :
    ms.flatMap after = ms.map written := by
  induction ms with
  | nil => rfl
  | cons t ms ih =>
    rw [List.flatMap_cons, List.map_cons, ih fun u hu => h u (List.mem_cons_of_mem t hu)]
    cases t with
    | string c => rfl
    | opening => rfl
    | closing added =>
      obtain rfl := h _ List.mem_cons_self added rfl
      rfl

theorem flatMap_after_kept (ts : List Token) : (ts.map kept).flatMap after = ts := by
  rw [flatMap_after (plain_kept ts), map_written_kept]

theorem takes_kept (vs : List (List Char)) (ts : List Token) : ∀ t ∈ ts.map kept, t.Takes vs := by
  intro t ht
  obtain ⟨x, -, rfl⟩ := List.mem_map.mp ht
  cases x with
  | string s => exact Cell.takes_kept vs s
  | opening => trivial
  | closing => exact List.forall_mem_nil _

theorem takes_pairs {vs : List (List Char)} {added : List Added} (h : ∀ t ∈ pairs added, t.Takes vs) :
    ∀ p ∈ added, p.1.Takes vs ∧ p.2.Takes vs := by
  intro p hp
  have hmem : ∀ t ∈ [string p.1, string p.2], t ∈ pairs added :=
    fun t ht => List.mem_flatMap.mpr ⟨p, hp, ht⟩
  exact ⟨h (string p.1) (hmem _ (by simp)), h (string p.2) (hmem _ (by simp))⟩

theorem takes_attach {vs : List (List Char)} {added : List Added} {ms : List MarkedToken}
    (hadded : ∀ p ∈ added, p.1.Takes vs ∧ p.2.Takes vs) (h : ∀ t ∈ ms, t.Takes vs) :
    ∀ t ∈ attach added ms, t.Takes vs := by
  unfold attach
  split
  · intro t ht
    rcases List.mem_cons.mp ht with rfl | ht
    · exact hadded
    · exact h t (List.mem_cons_of_mem _ ht)
  · exact h

theorem attach_before (added : List Added) (ms : List MarkedToken) :
    (attach added ms).map before = ms.map before := by
  unfold attach
  split <;> rfl

theorem attach_after {added : List Added} {ts : List Token} (h : added = [] ∨ ts.head? = some .closing) :
    (attach added (ts.map kept)).flatMap after = (pairs added).map written ++ ts := by
  cases ts with
  | nil =>
    rcases h with rfl | h
    · rfl
    · cases h
  | cons t ts =>
    cases t with
    | closing =>
      rw [List.map_cons, kept, attach, List.flatMap_cons, flatMap_after_kept, after, List.append_assoc]
      rfl
    | string s =>
      rcases h with rfl | h
      · exact flatMap_after_kept (.string s :: ts)
      · cases h
    | opening =>
      rcases h with rfl | h
      · exact flatMap_after_kept (.opening :: ts)
      · cases h

theorem pairs_cons (p : Added) (added : List Added) :
    pairs (p :: added) = string p.1 :: string p.2 :: pairs added := rfl

theorem pairs_append (added others : List Added) : pairs (added ++ others) = pairs added ++ pairs others :=
  List.flatMap_append

/-- Marks on added pairs are added pairs. -/
theorem exists_pairs {ms : List MarkedToken} {added : List Added}
    (h : ms.map before = (pairs added).map before) : ∃ added', ms = pairs added' := by
  induction added generalizing ms with
  | nil => exact ⟨[], List.map_eq_nil_iff.mp h⟩
  | cons p added ih =>
    obtain ⟨k, ms₁, rfl, hk, h₁⟩ := List.map_eq_cons_iff.mp h
    obtain ⟨v, ms₂, rfl, hv, h₂⟩ := List.map_eq_cons_iff.mp h₁
    obtain ⟨added', rfl⟩ := ih h₂
    cases k with
    | opening => cases hk
    | closing a => cases hk
    | string k =>
      cases v with
      | opening => cases hv
      | closing a => cases hv
      | string v => exact ⟨(k, v) :: added', rfl⟩

end MarkedToken

inductive Marked
  | nil
  | pair (key value : Cell) (rest : Marked)
  | block (name : Cell) (inner : Marked) (added : List Added) (rest : Marked)

namespace Marked

def tokens : Marked → List MarkedToken
  | nil => []
  | pair key value rest => .string key :: .string value :: rest.tokens
  | block name inner added rest =>
    .string name :: .opening :: (inner.tokens ++ .closing added :: rest.tokens)

def before : Marked → Entries
  | nil => .nil
  | pair key value rest => .pair key.text value.text rest.before
  | block name inner _ rest => .block name.text inner.before rest.before

def written : List Added → Entries
  | [] => .nil
  | p :: added => .pair p.1.written p.2.written (written added)

def after : Marked → Entries
  | nil => .nil
  | pair key value rest => .pair key.written value.written rest.after
  | block name inner added rest =>
    .block name.written (inner.after.append (written added)) rest.after

/-- The pairs that stand in no inner block. -/
def pairs : Marked → List Added
  | nil => []
  | pair key value rest => (key, value) :: rest.pairs
  | block _ _ _ rest => rest.pairs

/-- The blocks that stand in no inner block, with what is added to them. -/
def blocks : Marked → List (Marked × List Added)
  | nil => []
  | pair _ _ rest => rest.blocks
  | block _ inner added rest => (inner, added) :: rest.blocks

/-- Nothing is written over anywhere, and nothing added. -/
def Stays : Marked → Prop
  | nil => True
  | pair key value rest => key.Stays ∧ value.Stays ∧ rest.Stays
  | block name inner added rest => name.Stays ∧ inner.Stays ∧ added = [] ∧ rest.Stays

variable {m : Marked}

theorem tokens_written (added : List Added) :
    (written added).tokens = (MarkedToken.pairs added).map MarkedToken.written := by
  induction added with
  | nil => rfl
  | cons p added ih => simp [written, Entries.tokens, MarkedToken.pairs, MarkedToken.written, ih]

theorem tokens_after (m : Marked) : m.after.tokens = m.tokens.flatMap MarkedToken.after := by
  induction m with
  | nil => rfl
  | pair key value rest ih =>
    simp [tokens, after, Entries.tokens, MarkedToken.after, MarkedToken.written, ih]
  | block name inner added rest ih ih' =>
    simp [tokens, after, Entries.tokens, MarkedToken.after, MarkedToken.written, ih, ih', tokens_written]

theorem pairs_after (m : Marked) : m.after.pairs = m.pairs.map fun p => (p.1.written, p.2.written) := by
  induction m with
  | nil => rfl
  | pair key value rest ih => simp [after, pairs, Entries.pairs, ih]
  | block name inner added rest _ ih => simp [after, pairs, Entries.pairs, ih]

theorem pairs_before (m : Marked) : m.before.pairs = m.pairs.map fun p => (p.1.text, p.2.text) := by
  induction m with
  | nil => rfl
  | pair key value rest ih => simp [before, pairs, Entries.pairs, ih]
  | block name inner added rest _ ih => simp [before, pairs, Entries.pairs, ih]

theorem pairs_written (added : List Added) :
    (written added).pairs = added.map fun p => (p.1.written, p.2.written) := by
  induction added with
  | nil => rfl
  | cons p added ih => simp [written, Entries.pairs, ih]

@[simp] theorem blocks_written (added : List Added) : (written added).blocks = [] := by
  induction added with
  | nil => rfl
  | cons p added ih => exact ih

theorem blocks_after (m : Marked) :
    m.after.blocks = m.blocks.map fun b => b.1.after.append (written b.2) := by
  induction m with
  | nil => rfl
  | pair key value rest ih => simp [after, blocks, Entries.blocks, ih]
  | block name inner added rest _ ih => simp [after, blocks, Entries.blocks, ih]

theorem mem_pairs {p : Added} (h : p ∈ m.pairs) : .string p.1 ∈ m.tokens ∧ .string p.2 ∈ m.tokens := by
  induction m with
  | nil => cases h
  | pair key value rest ih =>
    rcases List.mem_cons.mp h with rfl | h
    · simp [tokens]
    · have hrest := ih h
      simp [tokens, hrest]
  | block name inner added rest _ ih =>
    have hrest := ih h
    simp [tokens, hrest]

theorem mem_blocks {b : Marked × List Added} (h : b ∈ m.blocks) :
    .closing b.2 ∈ m.tokens ∧ ∀ t ∈ b.1.tokens, t ∈ m.tokens := by
  induction m with
  | nil => cases h
  | pair key value rest ih =>
    have hrest := ih h
    exact ⟨by simp [tokens, hrest.1], fun t ht => by simp [tokens, hrest.2 t ht]⟩
  | block name inner added rest _ ih =>
    rcases List.mem_cons.mp h with rfl | h
    · exact ⟨by simp [tokens], fun t ht => by simp [tokens, ht]⟩
    · have hrest := ih h
      exact ⟨by simp [tokens, hrest.1], fun t ht => by simp [tokens, hrest.2 t ht]⟩

/-- What is written over the strings of a block's pairs. -/
theorem takes_blocks {vs : List (List Char)} (h : ∀ t ∈ m.tokens, t.Takes vs) {b : Marked × List Added}
    (hb : b ∈ m.blocks) : ∀ p ∈ b.1.pairs ++ b.2, p.1.Takes vs ∧ p.2.Takes vs := by
  obtain ⟨hclosing, htokens⟩ := mem_blocks hb
  rw [List.forall_mem_append]
  refine ⟨fun p hp => ?_, h _ hclosing⟩
  have hmem := mem_pairs hp
  exact ⟨h _ (htokens _ hmem.1), h _ (htokens _ hmem.2)⟩

/-- Marks on the tokens of entries are marks on the entries. -/
theorem exists_tokens {e : Entries} {ms : List MarkedToken} {ts : List Token}
    (h : ms.map MarkedToken.before = e.tokens ++ ts) :
    ∃ (m : Marked) (ms' : List MarkedToken), ms = m.tokens ++ ms' ∧ m.before = e ∧
      ms'.map MarkedToken.before = ts := by
  have hstring : ∀ {ms : List MarkedToken} {s ts}, ms.map MarkedToken.before = .string s :: ts →
      ∃ c ms', ms = .string c :: ms' ∧ c.text = s ∧ ms'.map MarkedToken.before = ts := by
    intro ms s ts h
    obtain ⟨t, ms', rfl, ht, hrest⟩ := List.map_eq_cons_iff.mp h
    cases t with
    | string c => exact ⟨c, ms', rfl, Token.string.inj ht, hrest⟩
    | opening => cases ht
    | closing added => cases ht
  have hopening : ∀ {ms : List MarkedToken} {ts}, ms.map MarkedToken.before = .opening :: ts →
      ∃ ms', ms = .opening :: ms' ∧ ms'.map MarkedToken.before = ts := by
    intro ms ts h
    obtain ⟨t, ms', rfl, ht, hrest⟩ := List.map_eq_cons_iff.mp h
    cases t with
    | string c => cases ht
    | opening => exact ⟨ms', rfl, hrest⟩
    | closing added => cases ht
  have hclosing : ∀ {ms : List MarkedToken} {ts}, ms.map MarkedToken.before = .closing :: ts →
      ∃ added ms', ms = .closing added :: ms' ∧ ms'.map MarkedToken.before = ts := by
    intro ms ts h
    obtain ⟨t, ms', rfl, ht, hrest⟩ := List.map_eq_cons_iff.mp h
    cases t with
    | string c => cases ht
    | opening => cases ht
    | closing added => exact ⟨added, ms', rfl, hrest⟩
  induction e generalizing ms ts with
  | nil => exact ⟨.nil, ms, rfl, rfl, h⟩
  | pair key value rest ih =>
    obtain ⟨k, ms₁, rfl, rfl, h₁⟩ := hstring h
    obtain ⟨v, ms₂, rfl, rfl, h₂⟩ := hstring h₁
    obtain ⟨m, ms', rfl, rfl, hrest⟩ := ih h₂
    exact ⟨.pair k v m, ms', rfl, rfl, hrest⟩
  | block name inner rest ih ih' =>
    obtain ⟨n, ms₁, rfl, rfl, h₁⟩ := hstring h
    obtain ⟨ms₂, rfl, h₂⟩ := hopening h₁
    simp only [List.append_eq, List.append_assoc, List.cons_append] at h₂
    obtain ⟨m, ms₃, rfl, rfl, h₃⟩ := ih h₂
    obtain ⟨added, ms₄, rfl, h₄⟩ := hclosing h₃
    obtain ⟨m', ms', rfl, rfl, hrest⟩ := ih' h₄
    exact ⟨.block n m added m', ms', by simp [tokens], rfl, hrest⟩

/-- Pairs at the end are no entries of before. -/
theorem append_written_eq_iff {e : Entries} (added : List Added)
    (hlength : m.pairs.length = e.pairs.length) :
    m.after.append (written added) = e ↔ m.after = e ∧ added = [] := by
  constructor
  · intro h
    have hpairs := congrArg (fun e => e.pairs.length) h
    simp only [Entries.pairs_append, pairs_after, pairs_written, List.length_append,
      List.length_map] at hpairs
    obtain rfl : added = [] := List.eq_nil_of_length_eq_zero (by omega)
    rw [written, Entries.append_nil] at h
    exact ⟨h, rfl⟩
  · rintro ⟨h, rfl⟩
    rw [written, Entries.append_nil, h]

theorem length_pairs_before (m : Marked) : m.before.pairs.length = m.pairs.length := by
  rw [pairs_before, List.length_map]

/-- Entries that are written over read as before. -/
theorem after_eq_before_iff (m : Marked) : m.after = m.before ↔ m.Stays := by
  induction m with
  | nil => exact iff_of_true rfl trivial
  | pair key value rest ih => simp only [after, before, Stays, Entries.pair.injEq, Cell.Stays, ih]
  | block name inner added rest ih ih' =>
    have hinner := append_written_eq_iff added (inner.length_pairs_before).symm
    simp only [after, before, Stays, Entries.block.injEq, Cell.Stays, hinner, ih, ih', and_assoc]

theorem append_written_eq_before_iff (added : List Added) :
    m.after.append (written added) = m.before ↔ m.Stays ∧ added = [] := by
  rw [append_written_eq_iff _ m.length_pairs_before.symm, after_eq_before_iff]

end Marked

/-! Marking the pairs of a key. -/

/-- The strings that directly follow a string that still reads as the key, from the left. -/
def markPairs (key v : List Char) : List MarkedToken → List MarkedToken
  | .string k :: .string x :: ms =>
    if k.written = key then .string k :: .string { x with new := some v } :: markPairs key v ms
    else .string k :: markPairs key v (.string x :: ms)
  | t :: ms => t :: markPairs key v ms
  | [] => []

/-- Without the key the pair is put at the end. -/
def markOrAdd (key v : List Char) (ms : List MarkedToken) : List MarkedToken :=
  if .string key ∈ ms.map MarkedToken.written then markPairs key v ms
  else ms ++ [.string (.kept key), .string (.kept v)]

section Marking
variable {key v : List Char} {ms : List MarkedToken}

theorem markPairs_other {t : MarkedToken}
    (h : ∀ k x ms', t = .string k → ms = .string x :: ms' → False) :
    markPairs key v (t :: ms) = t :: markPairs key v ms := by
  rw [markPairs]
  exact h

theorem markPairs_written (key v : List Char) (ms : List MarkedToken) :
    (markPairs key v ms).map MarkedToken.written = setPairs key v (ms.map MarkedToken.written) := by
  induction ms using markPairs.induct key with
  | case1 k x ms hk ih =>
    rw [markPairs, if_pos hk]
    simp only [List.map_cons, MarkedToken.written, setPairs, if_pos hk, ih]
    rw [hk]
    rfl
  | case2 k x ms hk ih =>
    rw [markPairs, if_neg hk, List.map_cons, ih]
    simp only [List.map_cons, MarkedToken.written, setPairs, if_neg hk]
  | case3 t ms ht ih =>
    rw [markPairs_other ht, List.map_cons, List.map_cons, ih]
    cases t with
    | opening => rfl
    | closing added => rfl
    | string k =>
      cases ms with
      | nil => rfl
      | cons y ms =>
        cases y with
        | opening => rfl
        | closing added => rfl
        | string x => exact (ht k x ms rfl rfl).elim
  | case4 => rfl

theorem markPairs_before (key v : List Char) (ms : List MarkedToken) :
    (markPairs key v ms).map MarkedToken.before = ms.map MarkedToken.before := by
  induction ms using markPairs.induct key with
  | case1 k x ms hk ih => simp [markPairs, MarkedToken.before, hk, ih]
  | case2 k x ms hk ih => simp [markPairs, MarkedToken.before, hk, ih]
  | case3 t ms ht ih => rw [markPairs_other ht, List.map_cons, List.map_cons, ih]
  | case4 => rfl

theorem markOrAdd_written (key v : List Char) (ms : List MarkedToken) :
    (markOrAdd key v ms).map MarkedToken.written = editPairs key v (ms.map MarkedToken.written) := by
  unfold markOrAdd editPairs
  split
  · exact markPairs_written key v ms
  · simp [MarkedToken.written]

theorem plain_markPairs (h : ∀ t ∈ ms, t.Plain) : ∀ t ∈ markPairs key v ms, t.Plain := by
  induction ms using markPairs.induct key with
  | case1 k x ms hk ih =>
    rw [markPairs, if_pos hk]
    intro t ht
    rcases List.mem_cons.mp ht with rfl | ht
    · exact MarkedToken.plain_string _
    rcases List.mem_cons.mp ht with rfl | ht
    · exact MarkedToken.plain_string _
    · exact ih (fun u hu => h u (by simp [hu])) t ht
  | case2 k x ms hk ih =>
    rw [markPairs, if_neg hk]
    intro t ht
    rcases List.mem_cons.mp ht with rfl | ht
    · exact MarkedToken.plain_string _
    · exact ih (fun u hu => h u (List.mem_cons_of_mem _ hu)) t ht
  | case3 t ms ht ih =>
    rw [markPairs_other ht]
    intro u hu
    rcases List.mem_cons.mp hu with rfl | hu
    · exact h _ List.mem_cons_self
    · exact ih (fun u hu => h u (List.mem_cons_of_mem _ hu)) u hu
  | case4 => exact h

theorem plain_markOrAdd (h : ∀ t ∈ ms, t.Plain) : ∀ t ∈ markOrAdd key v ms, t.Plain := by
  unfold markOrAdd
  split
  · exact plain_markPairs h
  · intro t ht
    rcases List.mem_append.mp ht with ht | ht
    · exact h t ht
    · simp only [List.mem_cons, List.not_mem_nil, or_false] at ht
      rcases ht with rfl | rfl
      · exact MarkedToken.plain_string _
      · exact MarkedToken.plain_string _

theorem takes_markPairs {vs : List (List Char)} (hv : v ∈ vs) (h : ∀ t ∈ ms, t.Takes vs) :
    ∀ t ∈ markPairs key v ms, t.Takes vs := by
  induction ms using markPairs.induct key with
  | case1 k x ms hk ih =>
    rw [markPairs, if_pos hk]
    simp only [List.forall_mem_cons] at h ⊢
    exact ⟨h.1, Cell.takes_new hv x.text, ih h.2.2⟩
  | case2 k x ms hk ih =>
    rw [markPairs, if_neg hk, List.forall_mem_cons]
    rw [List.forall_mem_cons] at h
    exact ⟨h.1, ih h.2⟩
  | case3 t ms ht ih =>
    rw [markPairs_other ht, List.forall_mem_cons]
    rw [List.forall_mem_cons] at h
    exact ⟨h.1, ih h.2⟩
  | case4 => exact h

theorem takes_markOrAdd {vs : List (List Char)} (hv : v ∈ vs) (h : ∀ t ∈ ms, t.Takes vs) :
    ∀ t ∈ markOrAdd key v ms, t.Takes vs := by
  unfold markOrAdd
  split
  · exact takes_markPairs hv h
  · rw [List.forall_mem_append]
    exact ⟨h, MarkedToken.takes_kept vs [.string key, .string v]⟩

/-- The tokens of the file, and the pairs behind them. -/
def Extends (ts : List Token) (ms : List MarkedToken) : Prop :=
  ∃ cells added, ms = cells ++ MarkedToken.pairs added ∧ cells.map MarkedToken.before = ts

theorem extends_of_before {ts : List Token} {ms ms' : List MarkedToken} (h : Extends ts ms)
    (hsame : ms'.map MarkedToken.before = ms.map MarkedToken.before) : Extends ts ms' := by
  obtain ⟨cells, added, rfl, rfl⟩ := h
  rw [List.map_append] at hsame
  obtain ⟨cells', rest, rfl, hcells, hrest⟩ := List.map_eq_append_iff.mp hsame
  obtain ⟨added', rfl⟩ := MarkedToken.exists_pairs hrest
  exact ⟨cells', added', rfl, hcells⟩

theorem extends_kept (ts : List Token) : Extends ts (ts.map MarkedToken.kept) :=
  ⟨_, [], (List.append_nil _).symm, MarkedToken.map_before_kept ts⟩

theorem extends_markPairs {ts : List Token} (h : Extends ts ms) : Extends ts (markPairs key v ms) :=
  extends_of_before h (markPairs_before key v ms)

theorem extends_markOrAdd {ts : List Token} (h : Extends ts ms) : Extends ts (markOrAdd key v ms) := by
  unfold markOrAdd
  split
  · exact extends_markPairs h
  · obtain ⟨cells, added, rfl, hcells⟩ := h
    refine ⟨cells, added ++ [(.kept key, .kept v)], ?_, hcells⟩
    rw [MarkedToken.pairs_append, List.append_assoc]
    rfl

end Marking

end Disping.Text
