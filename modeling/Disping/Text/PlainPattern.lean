import Disping.Text.NamedSearch

/-! # Patterns of plain characters

A letter, a digit, an underscore or a quotation mark in a pattern stands for itself, so a pattern that
names a pair in such characters compiles to the expression of that pair.
-/
namespace Disping.Text

def Plain (c : Char) : Prop := wordChar c = true ∨ c = '"'

theorem plain_quoted {w : List Char} (hw : ∀ c ∈ w, Plain c) : ∀ c ∈ quoted w, Plain c := by
  intro c hc
  rw [quoted, List.mem_cons, List.mem_append, List.mem_singleton] at hc
  rcases hc with rfl | hc | rfl
  · exact .inr rfl
  · exact hw c hc
  · exact .inr rfl

section Tokens
variable {icase : Bool}

theorem patternToken_plain {c : Char} (hc : Plain c) (cs : List Char) :
    patternToken icase (c :: cs) = some (.atom (.char (same icase c)), cs) := by
  have hne : ∀ d : Char, wordChar d = false → d ≠ '"' → c ≠ d := by
    rintro d hd hquote rfl
    rcases hc with h | h
    · rw [hd] at h
      cases h
    · exact hquote h
  have hclose : c ∉ ['}', ']'] := by
    simp [hne '}' (by decide) (by decide), hne ']' (by decide) (by decide)]
  unfold patternToken
  split <;> rename_i heq
  -- every other case is about a character with a meaning of its own
  all_goals try (exact absurd (List.cons.inj heq).1 (hne _ (by decide) (by decide)))
  · cases heq
    rw [if_neg hclose]
  · cases heq

/-- Plain characters are read one by one. -/
theorem patternTokens_plain {w : List Char} (hw : ∀ c ∈ w, Plain c) (fuel : ℕ) (cs : List Char) :
    patternTokens icase (w.length + fuel) (w ++ cs) = (patternTokens icase fuel cs).map
      ((w.map fun c => .atom (.char (same icase c))) ++ ·) := by
  induction w with
  | nil => simp
  | cons c w ih =>
    have htail := ih fun d hd => hw d (List.mem_cons_of_mem c hd)
    have hfuel : (c :: w).length + fuel = w.length + fuel + 1 := by
      simp only [List.length_cons]
      omega
    rw [hfuel, List.cons_append, patternTokens, patternToken_plain (hw c (List.mem_cons_self ..)),
      Option.bind_some]
    · simp only [htail, Option.map_map]
      rfl
    · simp

end Tokens

/-! The expression of atoms and one repeated atom. -/

/-- A frame whose last atoms are pushed one after the other. -/
theorem assemble_atoms (es : List Expression) (ts : List PatternToken) (count : ℕ) (f : Frame) :
    ∃ g : Frame, assemble (es.map .atom ++ ts) count f [] = assemble ts count g [] ∧
      g.settled = es.reverse ++ f.settled ∧ g.ended = f.ended := by
  induction es generalizing f with
  | nil => exact ⟨f, rfl, rfl, rfl⟩
  | cons e es ih =>
    obtain ⟨g, hg, hsettled, hended⟩ := ih { f with terms := f.settled, last := some e }
    refine ⟨g, ?_, ?_, hended⟩
    · rw [← hg]
      rfl
    · rw [hsettled]
      simp [Frame.settled]

theorem backrefs_foldr (es : List Expression) (e : Expression) :
    (es.foldr .seq e).backrefs = es.flatMap Expression.backrefs ++ e.backrefs := by
  induction es with
  | nil => rfl
  | cons a es ih => simp [Expression.backrefs, ih]

theorem literal_eq_foldr (same : Char → Char → Bool) (w : List Char) (e : Expression) :
    literal same w e = (w.map fun c => .char (same c)).foldr .seq e := by
  rw [literal, List.foldr_map]

/-- A quoted key, white space and a quoted word in a pattern of plain characters. -/
theorem regex_named {key v : List Char} (hkey : ∀ c ∈ key, Plain c) (hv : ∀ c ∈ v, Plain c)
    (icase : Bool) : regex (quoted key ++ "\\s*\"".toList ++ v ++ ['"']) icase =
      some (namedExpression (same icase) key v) := by
  have htext : quoted key ++ "\\s*\"".toList ++ v ++ ['"'] =
      quoted key ++ ('\\' :: 's' :: '*' :: (quoted v ++ [])) := by simp [quoted]
  let atoms : List Char → List Expression := fun w => w.map fun c => .char (same icase c)
  have htokens : patternTokens icase (quoted key ++ ('\\' :: 's' :: '*' :: (quoted v ++ []))).length
      (quoted key ++ ('\\' :: 's' :: '*' :: (quoted v ++ []))) =
      some ((atoms (quoted key)).map .atom ++ (.atom (.char isSpace) :: .quantifier 0 none true ::
        ((atoms (quoted v)).map .atom ++ []))) := by
    have hlength : (quoted key ++ ('\\' :: 's' :: '*' :: (quoted v ++ []))).length =
        (quoted key).length + ((quoted v).length + 1 + 1 + 1) := by simp
    have hspace : patternToken icase ('\\' :: 's' :: '*' :: (quoted v ++ [])) =
        some (.atom (.char isSpace), '*' :: (quoted v ++ [])) := rfl
    have hstar : patternToken icase ('*' :: (quoted v ++ [])) =
        some (.quantifier 0 none true, quoted v ++ []) := rfl
    rw [hlength, patternTokens_plain (plain_quoted hkey), patternTokens, hspace, Option.bind_some]
    · simp only [patternTokens, hstar, Option.bind_some, patternTokens_plain (plain_quoted hv),
        Option.map_some]
      simp [atoms, Function.comp_def]
    · simp
  obtain ⟨g, hg, hsettled, hended⟩ := assemble_atoms (atoms (quoted key)) (.atom (.char isSpace) ::
    .quantifier 0 none true :: ((atoms (quoted v)).map .atom ++ [])) 0 (.opened .atom)
  obtain ⟨f, hf, hsettled', hended'⟩ := assemble_atoms (atoms (quoted v)) [] 0
    { g with terms := many isSpace :: g.settled, last := none }
  have hrun : assemble (.atom (.char isSpace) :: .quantifier 0 none true ::
      ((atoms (quoted v)).map .atom ++ [])) 0 g [] = assemble ((atoms (quoted v)).map .atom ++ []) 0
        { g with terms := many isSpace :: g.settled, last := none } [] := rfl
  have hbody : f.body = namedExpression (same icase) key v := by
    have hnone : f.ended = [] := hended'.trans hended
    have hterms : f.settled = (atoms (quoted v)).reverse ++ many isSpace :: (atoms (quoted key)).reverse := by
      have hfirst : g.settled = (atoms (quoted key)).reverse := hsettled.trans (List.append_nil _)
      rw [hsettled', hfirst]
      rfl
    rw [Frame.body, hnone, List.foldl_nil, Frame.alternative, hterms, namedExpression, literal_eq_foldr,
      literal_eq_foldr, List.foldl_append, List.foldl_reverse, List.foldl_cons, List.foldl_reverse]
  have hrefs : (namedExpression (same icase) key v).backrefs = [] := by
    rw [namedExpression, literal_eq_foldr, literal_eq_foldr, backrefs_foldr]
    simp [Expression.backrefs, backrefs_foldr, many, List.flatMap_map]
  rw [regex, htext, htokens, Option.bind_some, hg, hrun, hf, assemble, hbody, hrefs,
    if_pos fun _ hn => absurd hn List.not_mem_nil]

end Disping.Text
