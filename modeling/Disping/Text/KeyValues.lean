import Disping.Text.Pattern

/-! # Quoted strings and braces

The token level of a key-value format: strings in quotation marks, without escapes, and braces, with
white space between them. A text has at most one list of tokens; the layouts of a list are the texts
that have it.
-/
namespace Disping.Text

inductive Token
  | string (s : List Char)
  | opening
  | closing
deriving DecidableEq, Repr

mutual

/-- The tokens of a text that begins between two tokens. -/
def tokenize : List Char → Option (List Token)
  | [] => some []
  | c :: cs =>
    if c = '"' then (tokenizeString cs).map fun (s, ts) => .string s :: ts
    else if c = '{' then (tokenize cs).map (.opening :: ·)
    else if c = '}' then (tokenize cs).map (.closing :: ·)
    else if isSpace c then tokenize cs
    else none

/-- The rest of a string, and the tokens after it. -/
def tokenizeString : List Char → Option (List Char × List Token)
  | [] => none
  | c :: cs =>
    if c = '"' then (tokenize cs).map ([], ·)
    else (tokenizeString cs).map fun (s, ts) => (c :: s, ts)

end

def Gap (g : List Char) : Prop := ∀ c ∈ g, isSpace c = true

/-- The texts that consist of these tokens. -/
inductive Layout : List Token → List Char → Prop
  | nil {g} : Gap g → Layout [] g
  | string {g s ts t} : Gap g → '"' ∉ s → Layout ts t →
      Layout (.string s :: ts) (g ++ '"' :: (s ++ '"' :: t))
  | opening {g ts t} : Gap g → Layout ts t → Layout (.opening :: ts) (g ++ '{' :: t)
  | closing {g ts t} : Gap g → Layout ts t → Layout (.closing :: ts) (g ++ '}' :: t)

theorem Gap.nil : Gap [] := by simp [Gap]

theorem Gap.cons {c : Char} {g : List Char} (hc : isSpace c = true) (h : Gap g) : Gap (c :: g) := by
  intro d hd
  rcases List.mem_cons.mp hd with rfl | hd
  · exact hc
  · exact h d hd

theorem Layout.space {c : Char} (hc : isSpace c = true) {ts : List Token} {t : List Char}
    (h : Layout ts t) : Layout ts (c :: t) := by
  cases h with
  | nil hg => exact .nil (hg.cons hc)
  | string hg hs h => exact .string (hg.cons hc) hs h
  | opening hg h => exact .opening (hg.cons hc) h
  | closing hg h => exact .closing (hg.cons hc) h

theorem Layout.spaces {g : List Char} (hg : Gap g) {ts : List Token} {t : List Char}
    (h : Layout ts t) : Layout ts (g ++ t) := by
  induction g with
  | nil => exact h
  | cons c g ih =>
    exact (ih fun d hd => hg d (List.mem_cons_of_mem c hd)).space (hg c (List.mem_cons_self ..))

theorem tokenize_spaces {g : List Char} (hg : Gap g) (t : List Char) :
    tokenize (g ++ t) = tokenize t := by
  induction g with
  | nil => rfl
  | cons c g ih =>
    have hc : isSpace c = true := hg c (List.mem_cons_self ..)
    have hquote : c ≠ '"' := by rintro rfl; exact absurd hc (by decide)
    have hopen : c ≠ '{' := by rintro rfl; exact absurd hc (by decide)
    have hclose : c ≠ '}' := by rintro rfl; exact absurd hc (by decide)
    rw [List.cons_append, tokenize, if_neg hquote, if_neg hopen, if_neg hclose, if_pos hc]
    exact ih fun d hd => hg d (List.mem_cons_of_mem c hd)

theorem tokenizeString_append {s : List Char} (hs : '"' ∉ s) (t : List Char) :
    tokenizeString (s ++ '"' :: t) = (tokenize t).map (s, ·) := by
  induction s with
  | nil => rw [List.nil_append, tokenizeString, if_pos rfl]
  | cons c s ih =>
    rw [List.mem_cons, not_or] at hs
    rw [List.cons_append, tokenizeString, if_neg (Ne.symm hs.1), ih hs.2, Option.map_map]
    rfl

theorem tokenize_of_layout {ts : List Token} {t : List Char} (h : Layout ts t) :
    tokenize t = some ts := by
  induction h with
  | nil hg => simpa [tokenize] using tokenize_spaces hg []
  | string hg hs _ ih =>
    rw [tokenize_spaces hg, tokenize, if_pos rfl, tokenizeString_append hs, ih]
    rfl
  | opening hg _ ih =>
    rw [tokenize_spaces hg, tokenize, if_neg (by decide), if_pos rfl, ih]
    rfl
  | closing hg _ ih =>
    rw [tokenize_spaces hg, tokenize, if_neg (by decide), if_neg (by decide), if_pos rfl, ih]
    rfl

/-- What is left of a string when it is scanned, up to its closing quotation mark. -/
theorem layout_of_tokenize_aux (t : List Char) :
    (∀ ts, tokenize t = some ts → Layout ts t) ∧
      ∀ s ts, tokenizeString t = some (s, ts) →
        ∃ rest, t = s ++ '"' :: rest ∧ '"' ∉ s ∧ Layout ts rest := by
  induction t with
  | nil =>
    refine ⟨fun ts h => ?_, fun s ts h => ?_⟩
    · rw [tokenize, Option.some.injEq] at h
      exact h ▸ .nil .nil
    · rw [tokenizeString] at h
      cases h
  | cons c cs ih =>
    obtain ⟨htokens, hstring⟩ := ih
    refine ⟨fun ts h => ?_, fun s ts h => ?_⟩
    · rw [tokenize] at h
      split at h
      · rename_i hc
        obtain ⟨⟨s, us⟩, hs, rfl⟩ := Option.map_eq_some_iff.mp h
        obtain ⟨rest, rfl, hquote, hlayout⟩ := hstring s us hs
        exact hc ▸ .string .nil hquote hlayout
      split at h
      · rename_i hc
        obtain ⟨us, hus, rfl⟩ := Option.map_eq_some_iff.mp h
        exact hc ▸ .opening .nil (htokens us hus)
      split at h
      · rename_i hc
        obtain ⟨us, hus, rfl⟩ := Option.map_eq_some_iff.mp h
        exact hc ▸ .closing .nil (htokens us hus)
      split at h
      · rename_i hc
        exact (htokens ts h).space hc
      · cases h
    · rw [tokenizeString] at h
      split at h
      · rename_i hc
        obtain ⟨us, hus, heq⟩ := Option.map_eq_some_iff.mp h
        cases heq
        exact ⟨cs, by rw [hc]; rfl, List.not_mem_nil, htokens ts hus⟩
      · rename_i hc
        obtain ⟨⟨s', us⟩, hs, heq⟩ := Option.map_eq_some_iff.mp h
        cases heq
        obtain ⟨rest, rfl, hquote, hlayout⟩ := hstring s' ts hs
        refine ⟨rest, rfl, ?_, hlayout⟩
        rw [List.mem_cons, not_or]
        exact ⟨Ne.symm hc, hquote⟩

/-- The tokens of a text are those it is a layout of. -/
theorem tokenize_eq_some_iff {ts : List Token} {t : List Char} :
    tokenize t = some ts ↔ Layout ts t :=
  ⟨(layout_of_tokenize_aux t).1 ts, tokenize_of_layout⟩

theorem Layout.unique {ts us : List Token} {t : List Char} (h : Layout ts t) (h' : Layout us t) :
    ts = us := Option.some.inj ((tokenize_of_layout h).symm.trans (tokenize_of_layout h'))

/-! Texts one after the other. -/

theorem Layout.append {ts us : List Token} {t u : List Char} (h : Layout ts t)
    (h' : Layout us u) : Layout (ts ++ us) (t ++ u) := by
  induction h with
  | nil hg => exact h'.spaces hg
  | string hg hs _ ih => simpa using Layout.string hg hs ih
  | opening hg _ ih => simpa using Layout.opening hg ih
  | closing hg _ ih => simpa using Layout.closing hg ih

/-- A text is cut where its tokens are. -/
theorem Layout.split {ts us : List Token} {t : List Char} (h : Layout (ts ++ us) t) :
    ∃ a b, t = a ++ b ∧ Layout ts a ∧ Layout us b := by
  induction ts generalizing t with
  | nil => exact ⟨[], t, rfl, .nil .nil, h⟩
  | cons x ts ih =>
    rw [List.cons_append] at h
    cases h with
    | string hg hs h =>
      obtain ⟨a, b, rfl, ha, hb⟩ := ih h
      exact ⟨_, b, by simp, .string hg hs ha, hb⟩
    | opening hg h =>
      obtain ⟨a, b, rfl, ha, hb⟩ := ih h
      exact ⟨_, b, by simp, .opening hg ha, hb⟩
    | closing hg h =>
      obtain ⟨a, b, rfl, ha, hb⟩ := ih h
      exact ⟨_, b, by simp, .closing hg ha, hb⟩

/-- Behind the text of some tokens the next ones are read. -/
theorem Layout.tokenize_append {ts : List Token} {t : List Char} (h : Layout ts t) (u : List Char) :
    tokenize (t ++ u) = (tokenize u).map (ts ++ ·) := by
  induction h with
  | nil hg => simp [tokenize_spaces hg]
  | string hg hs _ ih =>
    rw [List.append_assoc, List.cons_append, List.append_assoc, List.cons_append,
      tokenize_spaces hg, tokenize, if_pos rfl, tokenizeString_append hs, ih]
    simp [Function.comp_def]
  | opening hg _ ih =>
    rw [List.append_assoc, List.cons_append, tokenize_spaces hg, tokenize, if_neg (by decide),
      if_pos rfl, ih]
    simp [Function.comp_def]
  | closing hg _ ih =>
    rw [List.append_assoc, List.cons_append, tokenize_spaces hg, tokenize, if_neg (by decide),
      if_neg (by decide), if_pos rfl, ih]
    simp [Function.comp_def]

/-- A text that begins with the text of some tokens has them first. -/
theorem Layout.begins {ts us : List Token} {t u : List Char} (h : Layout ts (t ++ u)) (h' : Layout us t) :
    ∃ vs, ts = us ++ vs ∧ Layout vs u := by
  rw [← tokenize_eq_some_iff, h'.tokenize_append] at h
  obtain ⟨vs, hvs, rfl⟩ := Option.map_eq_some_iff.mp h
  exact ⟨vs, rfl, tokenize_eq_some_iff.mp hvs⟩

/-- What follows a cut between tokens. -/
theorem Layout.rest {ts us : List Token} {t u : List Char} (h : Layout (ts ++ us) (t ++ u))
    (h' : Layout ts t) : Layout us u := by
  obtain ⟨vs, heq, hvs⟩ := h.begins h'
  rwa [List.append_cancel_left heq]

theorem tokenizeString_open {s : List Char} (hs : '"' ∉ s) : tokenizeString s = none := by
  induction s with
  | nil => rfl
  | cons c s ih =>
    rw [List.mem_cons, not_or] at hs
    rw [tokenizeString, if_neg (Ne.symm hs.1), ih hs.2]
    rfl

/-- A quotation mark that is not closed begins no token. -/
theorem Layout.not_open {ts us : List Token} {t s : List Char} (h : Layout ts t) (hs : '"' ∉ s) :
    ¬ Layout us (t ++ '"' :: s) := by
  rw [← tokenize_eq_some_iff, h.tokenize_append, tokenize, if_pos rfl, tokenizeString_open hs]
  exact nofun

end Disping.Text
