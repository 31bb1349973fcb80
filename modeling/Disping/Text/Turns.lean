import Disping.Text.PairEditing
import Disping.Text.SetSegments

/-! # Segments of a text that consists of tokens

Between the quotation marks of such a text stand, by turns, its strings and the braces between them.
Replacing pairs among the segments is setting them among the tokens.
-/
namespace Disping.Text

/-- The tokens before the first quotation mark are braces, and have a text of their own. -/
theorem Layout.unquoted_split {ts : List Token} {g t : List Char} (h : Layout ts (g ++ t)) (hg : '"' ∉ g) :
    ∃ bs post, ts = bs ++ post ∧ Layout bs g ∧ Layout post t := by
  induction g generalizing ts with
  | nil => exact ⟨[], ts, rfl, .nil .nil, h⟩
  | cons c g ih =>
    rw [List.mem_cons, not_or] at hg
    rw [← tokenize_eq_some_iff, List.cons_append, tokenize, if_neg (Ne.symm hg.1)] at h
    split at h
    · rename_i hc
      obtain ⟨us, hus, rfl⟩ := Option.map_eq_some_iff.mp h
      obtain ⟨bs, post, rfl, hbs, hpost⟩ := ih (tokenize_eq_some_iff.mp hus) hg.2
      exact ⟨.opening :: bs, post, rfl, hc ▸ .opening .nil hbs, hpost⟩
    split at h
    · rename_i hc
      obtain ⟨us, hus, rfl⟩ := Option.map_eq_some_iff.mp h
      obtain ⟨bs, post, rfl, hbs, hpost⟩ := ih (tokenize_eq_some_iff.mp hus) hg.2
      exact ⟨.closing :: bs, post, rfl, hc ▸ .closing .nil hbs, hpost⟩
    split at h
    · rename_i hc
      obtain ⟨bs, post, rfl, hbs, hpost⟩ := ih (tokenize_eq_some_iff.mp h) hg.2
      exact ⟨bs, post, rfl, hbs.space hc, hpost⟩
    · cases h

/-- A text is cut in front of what holds no quotation mark. -/
theorem Layout.unquoted_end {ts : List Token} {x y : List Char} (h : Layout ts (x ++ y)) (hy : '"' ∉ y) :
    ∃ pre bs, ts = pre ++ bs ∧ Layout pre x ∧ Layout bs y := by
  induction ts generalizing x with
  | nil =>
    generalize hu : x ++ y = u at h
    cases h with
    | nil hgap =>
      subst hu
      exact ⟨[], [], rfl, .nil fun c hc => hgap c (List.mem_append_left y hc),
        .nil fun c hc => hgap c (List.mem_append_right x hc)⟩
  | cons z ts ih =>
    have hsplit : ∀ g c u, Gap g → x ++ y = g ++ c :: u → (∃ m, x = g ++ c :: m ∧ u = m ++ y) ∨
        (Gap x ∧ ∃ m, y = m ++ c :: u) := by
      intro g c u hgap heq
      rcases List.append_eq_append_iff.mp heq with ⟨m, rfl, hm⟩ | ⟨m, rfl, hm⟩
      · exact .inr ⟨fun d hd => hgap d (List.mem_append_left m hd), m, hm⟩
      · cases m with
        | nil => exact .inr ⟨by simpa using hgap, [], hm.symm⟩
        | cons d m =>
          obtain ⟨rfl, rfl⟩ := List.cons.inj hm
          exact .inl ⟨m, rfl, rfl⟩
    have hall : Gap x → ∃ pre bs, z :: ts = pre ++ bs ∧ Layout pre x ∧ Layout bs y :=
      fun hx => ⟨[], z :: ts, rfl, .nil hx, @Layout.rest [] _ _ _ h (.nil hx)⟩
    generalize hu : x ++ y = u at h
    cases h with
    | @string g s _ u hgap hs h =>
      rcases hsplit g '"' _ hgap hu with ⟨m, rfl, hm⟩ | ⟨-, m, rfl⟩
      · rcases List.append_eq_append_iff.mp hm with ⟨m', rfl, hm'⟩ | ⟨m', rfl, hm'⟩
        · cases m' with
          | nil =>
            obtain rfl := hm'
            exact absurd List.mem_cons_self hy
          | cons d m' =>
            obtain ⟨rfl, rfl⟩ := List.cons.inj hm'
            obtain ⟨pre, bs, rfl, hpre, hbs⟩ := ih h
            exact ⟨.string s :: pre, bs, rfl, .string hgap hs hpre, hbs⟩
        · exact absurd (hm' ▸ List.mem_append_right m' List.mem_cons_self) hy
      · exact absurd (by simp) hy
    | @opening g _ u hgap h =>
      rcases hsplit g '{' u hgap hu with ⟨m, rfl, rfl⟩ | ⟨hx, -⟩
      · obtain ⟨pre, bs, rfl, hpre, hbs⟩ := ih h
        exact ⟨.opening :: pre, bs, rfl, .opening hgap hpre, hbs⟩
      · exact hall hx
    | @closing g _ u hgap h =>
      rcases hsplit g '}' u hgap hu with ⟨m, rfl, rfl⟩ | ⟨hx, -⟩
      · obtain ⟨pre, bs, rfl, hpre, hbs⟩ := ih h
        exact ⟨.closing :: pre, bs, rfl, .closing hgap hpre, hbs⟩
      · exact hall hx

theorem Layout.string_not_mem {bs : List Token} {g s : List Char} (h : Layout bs g) (hg : '"' ∉ g) :
    .string s ∉ bs := by
  induction h with
  | nil => exact List.not_mem_nil
  | string => simp at hg
  | opening _ _ ih => simpa using ih fun hmem => hg (by simp [hmem])
  | closing _ _ ih => simpa using ih fun hmem => hg (by simp [hmem])

theorem KeyWord.not_layout {key : List Char} (hkey : KeyWord key) (bs : List Token) : ¬ Layout bs key := by
  obtain ⟨c, w, rfl, hspace, hopening, hclosing⟩ := hkey.begins
  have hquote : c ≠ '"' := fun hc => hkey.unquoted (hc ▸ List.mem_cons_self)
  intro h
  rw [← tokenize_eq_some_iff, tokenize, if_neg hquote, if_neg hopening, if_neg hclosing,
    if_neg (by simp [hspace])] at h
  cases h

/-- The text behind a quotation mark that opens a string, or behind one that closes it. -/
def lead (opens : Bool) (t : List Char) : List Char := if opens then '"' :: t else t

/-- The quotation marks of a text open its strings or close them. -/
theorem Layout.quote_split {ts : List Token} {x t : List Char} (h : Layout ts (x ++ '"' :: t)) :
    ∃ b pre post, ts = pre ++ post ∧ Layout pre (if b then x else x ++ ['"']) ∧ Layout post (lead b t) := by
  induction ts generalizing x with
  | nil =>
    cases h with
    | nil hgap => exact absurd (List.mem_append_right x List.mem_cons_self) hgap.unquoted
  | cons y ts ih =>
    have hsplit : ∀ g c u, c ≠ '"' → Gap g → x ++ '"' :: t = g ++ c :: u →
        ∃ m, x = g ++ c :: m ∧ u = m ++ '"' :: t := by
      intro g c u hc hgap heq
      rcases List.append_eq_append_iff.mp heq with ⟨m, rfl, hm⟩ | ⟨m, rfl, hm⟩
      · cases m with
        | nil => exact absurd (List.cons.inj hm).1.symm hc
        | cons d m =>
          obtain rfl := (List.cons.inj hm).1
          exact absurd hgap.unquoted (by simp)
      · cases m with
        | nil => exact absurd (List.cons.inj hm).1 hc
        | cons d m =>
          obtain ⟨rfl, rfl⟩ := List.cons.inj hm
          exact ⟨m, rfl, rfl⟩
    generalize hu : x ++ '"' :: t = u at h
    cases h with
    | @string g s _ u hgap hs h =>
      rcases split_at_quote hgap.unquoted hu.symm with ⟨rfl, rfl⟩ | ⟨x, rfl, hin⟩
      · exact ⟨true, [], .string s :: ts, rfl, .nil hgap, .string .nil hs h⟩
      · rcases split_at_quote hs hin with ⟨rfl, rfl⟩ | ⟨x, rfl, rfl⟩
        · refine ⟨false, [.string x], ts, rfl, ?_, h⟩
          simpa using Layout.string hgap hs (.nil .nil)
        · obtain ⟨b, pre, post, rfl, hpre, hpost⟩ := ih h
          refine ⟨b, .string s :: pre, post, rfl, ?_, hpost⟩
          cases b <;> simpa using Layout.string hgap hs hpre
    | @opening g _ u hgap h =>
      obtain ⟨x, rfl, rfl⟩ := hsplit g '{' u (by decide) hgap hu
      obtain ⟨b, pre, post, rfl, hpre, hpost⟩ := ih h
      refine ⟨b, .opening :: pre, post, rfl, ?_, hpost⟩
      cases b <;> simpa using Layout.opening hgap hpre
    | @closing g _ u hgap h =>
      obtain ⟨x, rfl, rfl⟩ := hsplit g '}' u (by decide) hgap hu
      obtain ⟨b, pre, post, rfl, hpre, hpost⟩ := ih h
      refine ⟨b, .closing :: pre, post, rfl, ?_, hpost⟩
      cases b <;> simpa using Layout.closing hgap hpre

/-- The text behind a quotation mark is put back. -/
theorem Layout.quote_join {b : Bool} {pre us : List Token} {x t : List Char}
    (h : Layout pre (if b then x else x ++ ['"'])) (h' : Layout us (lead b t)) :
    Layout (pre ++ us) (x ++ '"' :: t) := by
  cases b with
  | true => exact h.append h'
  | false => simpa [lead] using h.append h'

/-- A quotation mark opens a string or closes one. -/
theorem Layout.quote_unique {b b' : Bool} {pre pre' : List Token} {x : List Char}
    (h : Layout pre (if b then x else x ++ ['"'])) (h' : Layout pre' (if b' then x else x ++ ['"'])) :
    b = b' := by
  cases b with
  | true =>
    cases b' with
    | true => rfl
    | false => exact absurd h' (h.not_open List.not_mem_nil)
  | false =>
    cases b' with
    | true => exact absurd h (h'.not_open List.not_mem_nil)
    | false => rfl

/-- Segments by turns, first a string where a quotation mark opens one, and their tokens. The last flag
says whether a string is next. -/
inductive ByTurns : Bool → List (List Char) → List Token → Bool → Prop
  | nil (b : Bool) : ByTurns b [] [] b
  | string {s segs ts b} : ByTurns false segs ts b → ByTurns true (s :: segs) (.string s :: ts) b
  | braces {g segs bs ts b} : Layout bs g → '"' ∉ g → ByTurns true segs ts b →
      ByTurns false (g :: segs) (bs ++ ts) b

section Turns
variable {b b' b'' : Bool} {segs others : List (List Char)} {ts us post : List Token} {z : List Char}

theorem ByTurns.append (h : ByTurns b segs ts b') (h' : ByTurns b' others us b'') :
    ByTurns b (segs ++ others) (ts ++ us) b'' := by
  induction h with
  | nil => exact h'
  | string _ ih => exact .string (ih h')
  | braces hg hquote _ ih =>
    rw [List.append_assoc]
    exact .braces hg hquote (ih h')

/-- Where segments are cut, their tokens are. -/
theorem ByTurns.split (h : ByTurns b (segs ++ others) ts b') :
    ∃ m vs us, ts = vs ++ us ∧ ByTurns b segs vs m ∧ ByTurns m others us b' := by
  induction segs generalizing b ts with
  | nil => exact ⟨b, [], ts, rfl, .nil b, h⟩
  | cons s segs ih =>
    cases h with
    | string h =>
      obtain ⟨m, vs, us, rfl, hvs, hus⟩ := ih h
      exact ⟨m, .string s :: vs, us, rfl, .string hvs, hus⟩
    | braces hg hquote h =>
      obtain ⟨m, vs, us, rfl, hvs, hus⟩ := ih h
      exact ⟨m, _, us, (List.append_assoc ..).symm, .braces hg hquote hvs, hus⟩

/-- What is next depends on the number of segments only. -/
theorem ByTurns.next (h : ByTurns b segs ts b') (h' : ByTurns b others us b'')
    (hlength : segs.length = others.length) : b' = b'' := by
  induction h generalizing others us with
  | nil =>
    cases h' with
    | nil => rfl
    | string => cases hlength
    | braces => cases hlength
  | string _ ih =>
    cases h' with
    | nil => cases hlength
    | string h' => exact ih h' (Nat.succ.inj hlength)
  | braces _ _ _ ih =>
    cases h' with
    | nil => cases hlength
    | braces _ _ h' => exact ih h' (Nat.succ.inj hlength)

/-- The text of segments that stand by turns has their tokens. -/
theorem ByTurns.layout (h : ByTurns b segs ts b') (hsegs : Unquoted segs) (hpost : Layout post (lead b' z)) :
    Layout (ts ++ post) (lead b (closed segs ++ z)) := by
  induction h with
  | nil => exact hpost
  | @string s segs ts b _ ih =>
    have hrest := ih hsegs.tail hpost
    simpa [lead] using Layout.string .nil (hsegs s List.mem_cons_self) hrest
  | @braces g segs bs ts b hg hquote _ ih =>
    have hrest := hg.append (ih hsegs.tail hpost)
    simpa [lead] using hrest

/-- Segments before an open string have their tokens without its quotation mark. -/
theorem ByTurns.layout_open (h : ByTurns b segs ts true) (hsegs : Unquoted segs) :
    ∃ t, lead b (closed segs) = t ++ ['"'] ∧ Layout ts t := by
  generalize hb : true = b' at h
  induction h with
  | nil b =>
    subst hb
    exact ⟨[], rfl, .nil .nil⟩
  | @string s segs ts b _ ih =>
    obtain ⟨t, ht, hlayout⟩ := ih hsegs.tail hb
    have htext : closed segs = t ++ ['"'] := ht
    refine ⟨'"' :: (s ++ '"' :: t), ?_, .string .nil (hsegs s List.mem_cons_self) hlayout⟩
    simp [lead, htext]
  | @braces g segs bs ts b hg _ _ ih =>
    obtain ⟨t, ht, hlayout⟩ := ih hsegs.tail hb
    have htext : '"' :: closed segs = t ++ ['"'] := ht
    refine ⟨g ++ t, ?_, hg.append hlayout⟩
    simp [lead, htext]

/-- The segments of a text that consists of tokens stand by turns. -/
theorem ByTurns.of_layout (hsegs : Unquoted segs) (h : Layout ts (lead b (closed segs ++ z))) :
    ∃ b' us post, ts = us ++ post ∧ ByTurns b segs us b' ∧ Layout post (lead b' z) := by
  induction segs generalizing b ts with
  | nil => exact ⟨b, [], ts, rfl, .nil b, h⟩
  | cons s segs ih =>
    have hs := hsegs s List.mem_cons_self
    cases b with
    | true =>
      have htext : lead true (closed (s :: segs) ++ z) = '"' :: (s ++ '"' :: (closed segs ++ z)) := by
        simp [lead]
      rw [htext, ← tokenize_eq_some_iff, tokenize, if_pos rfl, tokenizeString_append hs] at h
      simp only [Option.map_map, Option.map_eq_some_iff] at h
      obtain ⟨vs, hvs, rfl⟩ := h
      obtain ⟨b', us, post, rfl, hturns, hpost⟩ := @ih false vs hsegs.tail (tokenize_eq_some_iff.mp hvs)
      exact ⟨b', .string s :: us, post, rfl, .string hturns, hpost⟩
    | false =>
      have htext : lead false (closed (s :: segs) ++ z) = s ++ '"' :: (closed segs ++ z) := by
        simp [lead]
      rw [htext] at h
      obtain ⟨bs, vs, rfl, hbs, hvs⟩ := h.unquoted_split hs
      obtain ⟨b', us, post, rfl, hturns, hpost⟩ := @ih true vs hsegs.tail hvs
      exact ⟨b', bs ++ us, post, (List.append_assoc ..).symm, .braces hbs hs hturns, hpost⟩

/-- A segment between two strings is no key. -/
theorem ByTurns.not_key_at {k : List Char} (hk : KeyWord k) (h : ByTurns b segs ts true)
    (h' : ByTurns b others us b') :
    others[segs.length + 1]? ≠ some k := by
  intro hat
  obtain ⟨hlt, hget⟩ := List.getElem?_eq_some_iff.mp hat
  have hcut : others = others.take (segs.length + 1) ++ k :: others.drop (segs.length + 2) := by
    rw [← hget, List.getElem_cons_drop, List.take_append_drop]
  rw [hcut] at h'
  obtain ⟨m, vs, ws, -, htake, hrest⟩ := h'.split
  have hnext : ByTurns b (segs ++ [[]]) (ts ++ [.string []]) false := h.append (.string (.nil false))
  have hlength : (others.take (segs.length + 1)).length = (segs ++ [[]]).length := by
    rw [List.length_take_of_le (Nat.le_of_lt hlt)]
    simp
  obtain rfl := htake.next hnext hlength
  cases hrest with
  | braces hg => exact hk.not_layout _ hg

/-- Where a string is next, the last of the segments is no key. -/
theorem ByTurns.last_not_key (h : ByTurns b segs ts true) {k : List Char} (hk : KeyWord k) {j : ℕ}
    (hj : j + 1 = segs.length) : segs[j]? ≠ some k := by
  intro hat
  obtain ⟨hlt, hget⟩ := List.getElem?_eq_some_iff.mp hat
  have hcut : segs = segs.take j ++ [k] := by
    rw [← hget, List.take_append_getElem hlt, hj, List.take_length]
  rw [hcut] at h
  obtain ⟨m, vs, ws, -, -, hlast⟩ := h.split
  cases hlast with
  | string hnil => cases hnil
  | braces hg => exact hk.not_layout _ hg

variable {key gap v : List Char} (hkey : KeyWord key)
include hkey

/-- A key among the segments is a string. -/
theorem ByTurns.mem_iff (h : ByTurns b segs ts b') : key ∈ segs ↔ .string key ∈ ts := by
  induction h with
  | nil => simp
  | string _ ih => simp [ih]
  | @braces g segs bs ts b hg hquote _ ih =>
    have hne : key ≠ g := by
      rintro rfl
      exact hkey.not_layout bs hg
    simp [hne, ih, hg.string_not_mem hquote]

omit hkey in
/-- A string with braces or nothing behind it begins no pair. -/
theorem ByTurns.setPairs_alone {s : List Char} (h : ByTurns false segs ts b')
    (hother : s = key → ∀ g others, segs = g :: others → ¬ Gap g ∨ others = []) :
    setPairs key v (.string s :: ts) = .string s :: setPairs key v ts := by
  apply setPairs_string
  rintro hs x us rfl
  generalize hvs : Token.string x :: us = vs at h
  cases h with
  | nil => cases hvs
  | @braces g segs bs ts b hg hquote hrest =>
    cases bs with
    | cons y bs =>
      obtain rfl := (List.cons.inj hvs).1
      exact hg.string_not_mem hquote List.mem_cons_self
    | nil =>
      rcases hother hs g segs rfl with hgap | rfl
      · cases hg with
        | nil hgap' => exact hgap hgap'
      · cases hrest
        cases hvs

omit hkey in
theorem ByTurns.setPairs_short (h : ByTurns b segs ts b') (hlength : segs.length ≤ 2) :
    setPairs key v ts = ts := by
  induction h with
  | nil => rfl
  | @string s segs ts b h ih =>
    rw [List.length_cons] at hlength
    rw [h.setPairs_alone, ih (by omega)]
    rintro - g others rfl
    rw [List.length_cons] at hlength
    exact .inr (List.eq_nil_of_length_eq_zero (by omega))
  | braces hg hquote _ ih =>
    rw [setPairs_braces fun s => hg.string_not_mem hquote, ih (Nat.le_of_succ_le hlength)]

/-- Replacing among the segments is setting among the tokens. -/
theorem ByTurns.set (hgap : Gap gap) (h : ByTurns b segs ts b') :
    ByTurns b (setSegments key gap v segs) (setPairs key v ts) b' := by
  have hquote := hgap.unquoted
  induction segs using setSegments.induct key generalizing b ts with
  | case1 a g c d segs hpair ih =>
    obtain ⟨rfl, hg⟩ := hpair
    rw [setSegments, if_pos ⟨rfl, hg⟩]
    cases h with
    | braces hg' => exact absurd hg' (hkey.not_layout _)
    | string h =>
      cases h with
      | braces hbs _ h =>
        obtain rfl := hbs.unique (.nil hg)
        cases h with
        | string h =>
          cases h with
          | @braces _ _ ds us _ hds hd h =>
            have hset : setPairs a v (.string a :: ([] ++ .string c :: (ds ++ us))) =
                .string a :: .string v :: (ds ++ setPairs a v us) := by
              rw [List.nil_append, setPairs, if_pos rfl, setPairs_braces fun s => hds.string_not_mem hd]
            rw [hset]
            exact .string (.braces (.nil hgap) hquote (.string (.braces hds hd (ih h))))
  | case2 a g c d segs hpair ih =>
    rw [setSegments, if_neg hpair]
    cases h with
    | braces hbs hq h =>
      rw [setPairs_braces fun s => hbs.string_not_mem hq]
      exact .braces hbs hq (ih h)
    | string h =>
      rw [h.setPairs_alone]
      · exact .string (ih h)
      · rintro ha g' others heq
        obtain rfl := (List.cons.inj heq).1
        exact .inl fun hg => hpair ⟨ha, hg⟩
  | case3 a g c hpair =>
    obtain ⟨rfl, hg⟩ := hpair
    rw [setSegments, if_pos ⟨rfl, hg⟩]
    cases h with
    | braces hg' => exact absurd hg' (hkey.not_layout _)
    | string h =>
      cases h with
      | braces hbs _ h =>
        obtain rfl := hbs.unique (.nil hg)
        cases h with
        | string h =>
          cases h
          rw [List.nil_append, setPairs, if_pos rfl]
          exact .string (.braces (.nil hgap) hquote (.string (.nil false)))
  | case4 a g c hpair =>
    rw [setSegments, if_neg hpair]
    cases h with
    | braces hbs hq h =>
      rw [setPairs_braces fun s => hbs.string_not_mem hq, h.setPairs_short (Nat.le_refl 2)]
      exact .braces hbs hq h
    | string h =>
      rw [h.setPairs_alone, h.setPairs_short (Nat.le_refl 2)]
      · exact .string h
      · rintro ha g' others heq
        obtain rfl := (List.cons.inj heq).1
        exact .inl fun hg => hpair ⟨ha, hg⟩
  | case5 segs hlong hthree =>
    have hlength := length_le_two hlong hthree
    rw [setSegments_short hlength, h.setPairs_short hlength]
    exact h

end Turns

end Disping.Text
