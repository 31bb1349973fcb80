import Disping.Text.PairEditing
import Mathlib.Data.List.Forall2

/-! # Searching for one pair of strings

The expression of a quoted key, white space and a quoted value, up to a comparison of characters. It
matches where a text begins with such a pair, so the first match is the first place that does.
-/
namespace Disping.Text

/-- A text that reads as the word, character by character. -/
def Spells (same : Char → Char → Bool) (w t : List Char) : Prop :=
  List.Forall₂ (fun c d => same c d = true) w t

section Words
variable {same : Char → Char → Bool} {k : Continuation} {before rest : List Char}
  {groups : ℕ → Option (List Char)} {w : List Char} (e : Expression)

theorem run_literal_spells {t : List Char} (h : Spells same w t) :
    (literal same w e).run k ⟨before, t ++ rest, groups⟩ =
      e.run k ⟨t.reverse ++ before, rest, groups⟩ := by
  induction h generalizing before with
  | nil => rfl
  | @cons c d w t hc _ ih =>
    have hstep : literal same (c :: w) e = .seq (.char (same c)) (literal same w e) := rfl
    rw [hstep, run_seq, Expression.run, List.cons_append, oneChar_cons hc, ih, List.reverse_cons,
      List.append_assoc]
    rfl

theorem run_literal_unspelled (h : ∀ t r, rest = t ++ r → ¬ Spells same w t) :
    (literal same w e).run k ⟨before, rest, groups⟩ = none := by
  induction w generalizing before rest with
  | nil => exact absurd .nil (h [] rest rfl)
  | cons c w ih =>
    have hstep : literal same (c :: w) e = .seq (.char (same c)) (literal same w e) := rfl
    rw [hstep, run_seq, Expression.run]
    cases rest with
    | nil => rfl
    | cons d rest =>
      by_cases hd : same c d = true
      · rw [oneChar_cons hd]
        apply ih
        intro t r hrest ht
        exact h (d :: t) r (congrArg (d :: ·) hrest) (.cons hd ht)
      · apply oneChar_none
        intro x xs hx
        cases hx
        exact Bool.not_eq_true _ ▸ hd

end Words

theorem spells_beq_iff {w t : List Char} : Spells (· == ·) w t ↔ t = w := by
  constructor
  · intro h
    induction h with
    | nil => rfl
    | cons hc _ ih => rw [ih, beq_iff_eq.mp hc]
  · rintro rfl
    exact List.forall₂_same.mpr fun c _ => beq_self_eq_true c

/-- A quoted word, white space, and one quoted word. -/
def namedExpression (same : Char → Char → Bool) (key v : List Char) : Expression :=
  literal same (quoted key) (.seq (many isSpace) (literal same (quoted v) .empty))

/-- A text that begins with the pair, and what follows it. -/
def ReadsPair (same : Char → Char → Bool) (key v text rest : List Char) : Prop :=
  ∃ w g u, Spells same (quoted key) w ∧ Gap g ∧ Spells same (quoted v) u ∧ text = w ++ (g ++ (u ++ rest))

section Pairs
variable {same : Char → Char → Bool} {key v : List Char}

theorem matchAt_named_some (hquote : ∀ d, same '"' d = true → d = '"') {text rest : List Char}
    (h : ReadsPair same key v text rest) (before : List Char) :
    ∃ x, (namedExpression same key v).matchAt before text = some x ∧ x.rest = rest := by
  obtain ⟨w, g, u, hw, hg, hu, rfl⟩ := h
  refine ⟨⟨u.reverse ++ (g.reverse ++ (w.reverse ++ before)), rest, fun _ => none⟩, ?_, rfl⟩
  rw [Expression.matchAt, namedExpression, run_literal_spells _ hw, run_seq]
  apply run_many_some hg
  · intro c cs hc
    cases hu with
    | cons hd _ =>
      cases hc
      rw [hquote _ hd]
      decide
  · rw [run_literal_spells _ hu, Expression.run]

theorem matchAt_named_none {text : List Char} (h : ∀ rest, ¬ ReadsPair same key v text rest)
    (before : List Char) : (namedExpression same key v).matchAt before text = none := by
  rw [Expression.matchAt, namedExpression]
  by_cases hw : ∃ w r, text = w ++ r ∧ Spells same (quoted key) w
  · obtain ⟨w, r, rfl, hw⟩ := hw
    rw [run_literal_spells _ hw, run_seq]
    apply run_many_none
    intro g afterGap before' hr hg
    apply run_literal_unspelled
    intro u rest hrest hu
    exact h rest ⟨w, g, u, hw, hg, hu, by rw [hr, hrest]⟩
  · apply run_literal_unspelled
    intro w r htext hspells
    exact hw ⟨w, r, htext, hspells⟩

end Pairs

section Search
variable {e : Expression}

theorem searchFrom_some {before text : List Char} {x : Cursor} (h : e.matchAt before text = some x) :
    e.searchFrom before text = some (before.length, x) := by
  cases text with
  | nil => rw [Expression.searchFrom, h, Option.map_some]
  | cons c cs => rw [Expression.searchFrom, h]

theorem searchFrom_skip {before cs : List Char} {c : Char} (h : e.matchAt before (c :: cs) = none) :
    e.searchFrom before (c :: cs) = e.searchFrom (c :: before) cs := by
  rw [Expression.searchFrom, h]

/-- The place of a match, with no match before it. -/
theorem searchFrom_split {before text : List Char} {n : ℕ} {x : Cursor}
    (h : e.searchFrom before text = some (n, x)) :
    ∃ a b, text = a ++ b ∧ n = before.length + a.length ∧ e.matchAt (a.reverse ++ before) b = some x ∧
      ∀ a₁ a₂, a = a₁ ++ a₂ → a₂ ≠ [] → e.matchAt (a₁.reverse ++ before) (a₂ ++ b) = none := by
  induction text generalizing before with
  | nil =>
    rw [Expression.searchFrom] at h
    obtain ⟨y, hy, heq⟩ := Option.map_eq_some_iff.mp h
    cases heq
    refine ⟨[], [], rfl, rfl, hy, ?_⟩
    intro a₁ a₂ ha hne
    exact absurd (List.append_eq_nil_iff.mp ha.symm).2 hne
  | cons c cs ih =>
    cases hm : e.matchAt before (c :: cs) with
    | some y =>
      rw [searchFrom_some hm] at h
      cases h
      refine ⟨[], c :: cs, rfl, rfl, hm, ?_⟩
      intro a₁ a₂ ha hne
      exact absurd (List.append_eq_nil_iff.mp ha.symm).2 hne
    | none =>
      rw [searchFrom_skip hm] at h
      obtain ⟨a, b, rfl, hn, hb, hfirst⟩ := ih h
      refine ⟨c :: a, b, rfl, ?_, by simpa using hb, ?_⟩
      · simp only [hn, List.length_cons]
        omega
      · intro a₁ a₂ ha hne
        cases a₁ with
        | nil =>
          have ha' : c :: a = a₂ := ha
          rw [← ha']
          exact hm
        | cons d a₁ =>
          rw [List.cons_append, List.cons.injEq] at ha
          obtain ⟨rfl, ha⟩ := ha
          simpa using hfirst a₁ a₂ ha hne

/-- Without a first match there is none anywhere. -/
theorem searchFrom_none {before text : List Char} (h : e.searchFrom before text = none) :
    ∀ a b, text = a ++ b → e.matchAt (a.reverse ++ before) b = none := by
  induction text generalizing before with
  | nil =>
    intro a b hab
    obtain ⟨rfl, rfl⟩ := List.append_eq_nil_iff.mp hab.symm
    rw [Expression.searchFrom, Option.map_eq_none_iff] at h
    exact h
  | cons c cs ih =>
    intro a b hab
    cases hm : e.matchAt before (c :: cs) with
    | some y =>
      rw [searchFrom_some hm] at h
      cases h
    | none =>
      rw [searchFrom_skip hm] at h
      cases a with
      | nil =>
        have hb : c :: cs = b := hab
        rw [← hb]
        exact hm
      | cons d a =>
        rw [List.cons_append, List.cons.injEq] at hab
        obtain ⟨rfl, hab⟩ := hab
        simpa using ih h a b hab

theorem searchFrom_append {before a : List Char} (b : List Char)
    (h : ∀ a₁ a₂, a = a₁ ++ a₂ → a₂ ≠ [] → e.matchAt (a₁.reverse ++ before) (a₂ ++ b) = none) :
    e.searchFrom before (a ++ b) = e.searchFrom (a.reverse ++ before) b := by
  induction a generalizing before with
  | nil => rfl
  | cons c a ih =>
    have hskip : e.matchAt before (c :: (a ++ b)) = none := h [] (c :: a) rfl (List.cons_ne_nil c a)
    rw [List.cons_append, searchFrom_skip hskip, ih]
    · simp
    · intro a₁ a₂ ha hne
      simpa using h (c :: a₁) a₂ (congrArg (c :: ·) ha) hne

end Search

section First
variable {same : Char → Char → Bool} {key v : List Char} (hquote : ∀ d, same '"' d = true → d = '"')

/-- No pair begins in the first part. -/
def NoPairIn (same : Char → Char → Bool) (key v a b : List Char) : Prop :=
  ∀ a₁ a₂, a = a₁ ++ a₂ → a₂ ≠ [] → ∀ rest, ¬ ReadsPair same key v (a₂ ++ b) rest

include hquote

/-- The first pair of a text is what the search finds. -/
theorem regexSearch_named_some {a b rest : List Char} (hb : ReadsPair same key v b rest)
    (hfirst : NoPairIn same key v a b) :
    ∃ x, regexSearch (namedExpression same key v) (a ++ b) = some (a.length, x) ∧ x.rest = rest := by
  obtain ⟨x, hx, hrest⟩ := matchAt_named_some hquote hb (a.reverse ++ [])
  refine ⟨x, ?_, hrest⟩
  rw [regexSearch, searchFrom_append, searchFrom_some hx]
  · simp
  · intro a₁ a₂ ha hne
    exact matchAt_named_none (hfirst a₁ a₂ ha hne) _

theorem regexSearch_named_split {text : List Char} {n : ℕ} {x : Cursor}
    (h : regexSearch (namedExpression same key v) text = some (n, x)) :
    ∃ a b, text = a ++ b ∧ n = a.length ∧ ReadsPair same key v b x.rest ∧ NoPairIn same key v a b := by
  obtain ⟨a, b, rfl, hn, hb, hfirst⟩ := searchFrom_split h
  have hnone : ∀ {t before}, (∃ rest, ReadsPair same key v t rest) →
      (namedExpression same key v).matchAt before t ≠ none := by
    rintro t before ⟨rest, hread⟩ hnone
    obtain ⟨y, hy, -⟩ := matchAt_named_some hquote hread before
    rw [hnone] at hy
    cases hy
  refine ⟨a, b, rfl, by simpa using hn, ?_, ?_⟩
  · by_cases hread : ∃ rest, ReadsPair same key v b rest
    · obtain ⟨rest, hread⟩ := hread
      obtain ⟨y, hy, rfl⟩ := matchAt_named_some hquote hread (a.reverse ++ [])
      rw [hb] at hy
      cases hy
      exact hread
    · rw [matchAt_named_none fun rest hr => hread ⟨rest, hr⟩] at hb
      cases hb
  · intro a₁ a₂ ha hne rest hread
    exact hnone ⟨rest, hread⟩ (hfirst a₁ a₂ ha hne)

theorem regexSearch_named_none {text : List Char}
    (h : regexSearch (namedExpression same key v) text = none) :
    ∀ a b, text = a ++ b → ∀ rest, ¬ ReadsPair same key v b rest := by
  intro a b hab rest hread
  obtain ⟨y, hy, -⟩ := matchAt_named_some hquote hread (a.reverse ++ [])
  rw [searchFrom_none h a b hab] at hy
  cases hy

end First

/-! Where a quoted key stands among tokens. -/

/-- The first quotation mark after a text without any. -/
theorem split_at_quote {p t a u : List Char} (hp : '"' ∉ p) (h : p ++ '"' :: t = a ++ '"' :: u) :
    (a = p ∧ u = t) ∨ ∃ a', a = p ++ '"' :: a' ∧ t = a' ++ '"' :: u := by
  induction p generalizing a with
  | nil =>
    cases a with
    | nil => exact .inl ⟨rfl, (List.cons.inj h).2.symm⟩
    | cons c a =>
      rw [List.nil_append, List.cons_append, List.cons.injEq] at h
      obtain ⟨rfl, h⟩ := h
      exact .inr ⟨a, rfl, h⟩
  | cons c p ih =>
    rw [List.mem_cons, not_or] at hp
    cases a with
    | nil => exact absurd (List.cons.inj h).1.symm hp.1
    | cons d a =>
      rw [List.cons_append, List.cons_append, List.cons.injEq] at h
      obtain ⟨rfl, h⟩ := h
      rcases ih hp.2 h with ⟨rfl, rfl⟩ | ⟨a', rfl, rfl⟩
      · exact .inl ⟨rfl, rfl⟩
      · exact .inr ⟨a', rfl, rfl⟩

/-- A text without quotation marks ends before the next one. -/
theorem split_before_quote {p t a u : List Char} (hp : '"' ∉ p) (h : p ++ t = a ++ '"' :: u) :
    ∃ a', a = p ++ a' ∧ t = a' ++ '"' :: u := by
  induction p generalizing a with
  | nil => exact ⟨a, rfl, h⟩
  | cons c p ih =>
    rw [List.mem_cons, not_or] at hp
    cases a with
    | nil => exact absurd (List.cons.inj h).1.symm hp.1
    | cons d a =>
      rw [List.cons_append, List.cons_append, List.cons.injEq] at h
      obtain ⟨rfl, h⟩ := h
      obtain ⟨a', rfl, ht⟩ := ih hp.2 h
      exact ⟨a', rfl, ht⟩

/-- A quoted key cuts the text between two tokens. -/
theorem Layout.key_split {key : List Char} (hkey : KeyWord key) {ts : List Token} {t : List Char}
    (h : Layout ts t) {a u : List Char} (ht : t = a ++ (quoted key ++ u)) :
    ∃ l r, ts = l ++ .string key :: r ∧ Layout l a ∧ Layout r u := by
  induction h generalizing a with
  | @nil g hg =>
    have hmem : '"' ∈ g := by
      rw [ht]
      simp [quoted]
    exact absurd hmem hg.unquoted
  | @string g s ts t hg hs h ih =>
    rw [quoted_append] at ht
    rcases split_at_quote hg.unquoted ht with ⟨rfl, hu⟩ | ⟨a', rfl, ht'⟩
    · obtain rfl : key = s := (quoted_prefix_iff hkey.unquoted hs).mp
        ⟨u, by rw [quoted_append, hu]⟩
      rw [List.append_cancel_left_eq, List.cons.injEq] at hu
      refine ⟨[], ts, rfl, .nil hg, ?_⟩
      rw [hu.2]
      exact h
    · rcases split_at_quote hs ht' with ⟨rfl, hu⟩ | ⟨a'', rfl, ht''⟩
      · refine absurd ?_ (not_quoted_prefix_closing hkey h)
        exact ⟨u, by rw [quoted_append, hu]⟩
      · obtain ⟨l, r, rfl, hl, hr⟩ := ih (a := a'') (by rw [ht'', quoted_append])
        exact ⟨.string s :: l, r, rfl, by simpa using Layout.string hg hs hl, hr⟩
  | @opening g ts t hg h ih =>
    have hplain : '"' ∉ g ++ ['{'] := by simp [hg.unquoted]
    rw [quoted_append, List.append_cons] at ht
    obtain ⟨a', rfl, ht'⟩ := split_before_quote hplain ht
    obtain ⟨l, r, rfl, hl, hr⟩ := ih (a := a') (by rw [ht', quoted_append])
    exact ⟨.opening :: l, r, rfl, by simpa using Layout.opening hg hl, hr⟩
  | @closing g ts t hg h ih =>
    have hplain : '"' ∉ g ++ ['}'] := by simp [hg.unquoted]
    rw [quoted_append, List.append_cons] at ht
    obtain ⟨a', rfl, ht'⟩ := split_before_quote hplain ht
    obtain ⟨l, r, rfl, hl, hr⟩ := ih (a := a') (by rw [ht', quoted_append])
    exact ⟨.closing :: l, r, rfl, by simpa using Layout.closing hg hl, hr⟩

/-! A pair among tokens. -/

section Tokens
variable {key v : List Char} {ts l : List Token} {a b rest : List Char}

theorem readsPair_beq_iff {text : List Char} : ReadsPair (· == ·) key v text rest ↔
    ∃ g, Gap g ∧ text = quoted key ++ (g ++ (quoted v ++ rest)) := by
  constructor
  · rintro ⟨w, g, u, hw, hg, hu, rfl⟩
    rw [spells_beq_iff.mp hw, spells_beq_iff.mp hu]
    exact ⟨g, hg, rfl⟩
  · rintro ⟨g, hg, rfl⟩
    exact ⟨quoted key, g, quoted v, spells_beq_iff.mpr rfl, hg, spells_beq_iff.mpr rfl, rfl⟩

/-- A pair that is read in a text is a pair of its tokens. -/
theorem Layout.pair_split (hkey : KeyWord key) (hv : '"' ∉ v) (h : Layout ts (a ++ b))
    (hb : ReadsPair (· == ·) key v b rest) :
    ∃ l r, ts = l ++ .string key :: .string v :: r ∧ Layout l a ∧ Layout r rest := by
  obtain ⟨g, hg, rfl⟩ := readsPair_beq_iff.mp hb
  obtain ⟨l, r, rfl, hl, hr⟩ := h.key_split hkey rfl
  have hstring : Layout [.string v] (g ++ quoted v) := by
    simpa [quoted] using Layout.string hg hv (.nil .nil)
  rw [← List.append_assoc] at hr
  obtain ⟨us, rfl⟩ := Layout.first_string hg hv hr
  exact ⟨l, us, rfl, hl, @Layout.rest [.string v] _ _ _ hr hstring⟩

/-- A pair of tokens is read where it stands. -/
theorem Layout.reads_pair (h : Layout ts a) (hin : [.string key, .string v] <:+: ts) :
    ∃ a₁ a₂ rest, a = a₁ ++ a₂ ∧ ReadsPair (· == ·) key v a₂ rest := by
  obtain ⟨l, r, hts⟩ := hin
  rw [← hts, List.append_assoc] at h
  obtain ⟨a₁, a₂, rfl, -, h₂⟩ := h.split
  cases h₂ with
  | @string g _ _ _ hg _ h₂ =>
    cases h₂ with
    | @string g₂ _ _ t hg₂ _ h₂ =>
      refine ⟨a₁ ++ g, quoted key ++ (g₂ ++ (quoted v ++ t)), t, by simp [quoted], ?_⟩
      exact readsPair_beq_iff.mpr ⟨g₂, hg₂, rfl⟩

theorem ReadsPair.append {same : Char → Char → Bool} {text : List Char}
    (h : ReadsPair same key v text rest) (b : List Char) :
    ReadsPair same key v (text ++ b) (rest ++ b) := by
  obtain ⟨w, g, u, hw, hg, hu, rfl⟩ := h
  exact ⟨w, g, u, hw, hg, hu, by simp⟩

theorem ReadsPair.ne_nil {same : Char → Char → Bool} {text : List Char}
    (h : ReadsPair same key v text rest) : text ≠ [] := by
  obtain ⟨w, g, u, hw, hg, hu, rfl⟩ := h
  cases hw
  simp

/-- The first match of a search among tokens, and that none stands before it. -/
theorem Layout.search_some (hkey : KeyWord key) (hv : '"' ∉ v) {text : List Char} (h : Layout ts text)
    {n : ℕ} {x : Cursor} (hx : regexSearch (namedExpression (· == ·) key v) text = some (n, x)) :
    ∃ l r, ts = l ++ .string key :: .string v :: r ∧ Layout l (text.take n) ∧ Layout r x.rest ∧
      ¬ [.string key, .string v] <:+: l := by
  obtain ⟨a, b, rfl, rfl, hread, hfirst⟩ := regexSearch_named_split (fun d hd => (beq_iff_eq.mp hd).symm) hx
  obtain ⟨l, r, rfl, hl, hr⟩ := h.pair_split hkey hv hread
  refine ⟨l, r, rfl, by rwa [List.take_left], hr, ?_⟩
  intro hin
  obtain ⟨a₁, a₂, rest, rfl, hread'⟩ := hl.reads_pair hin
  exact hfirst a₁ a₂ rfl hread'.ne_nil _ (hread'.append b)

theorem Layout.search_none {text : List Char} (h : Layout ts text)
    (hnone : regexSearch (namedExpression (· == ·) key v) text = none) :
    ¬ [.string key, .string v] <:+: ts := by
  intro hin
  obtain ⟨a₁, a₂, rest, rfl, hread⟩ := h.reads_pair hin
  exact regexSearch_named_none (fun d hd => (beq_iff_eq.mp hd).symm) hnone a₁ a₂ rfl rest hread

end Tokens

end Disping.Text
