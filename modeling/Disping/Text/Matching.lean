import Disping.Text.KeyValues

/-! # Pairs of strings found and replaced by an expression

The expression that reads a quoted key, white space and any quoted value matches where two strings
with that key stand next to each other among the tokens, and nowhere else.
-/
namespace Disping.Text

/-- The characters of a word, then the rest of the expression. -/
def literal (same : Char → Char → Bool) (w : List Char) (e : Expression) : Expression :=
  w.foldr (fun c e => .seq (.char (same c)) e) e

def many (p : Char → Bool) : Expression := .turns 0 none true [] (.char p)

@[simp] theorem Cursor.forget_nil (s : Cursor) : s.forget [] = s := by
  simp [Cursor.forget]

section Steps
variable {k : Continuation} {before rest : List Char} {groups : ℕ → Option (List Char)}

@[simp] theorem run_seq (a b : Expression) (s : Cursor) :
    (Expression.seq a b).run k s = a.run (b.run k) s := by rw [Expression.run]

theorem run_char (p : Char → Bool) : (Expression.char p).run = oneChar p := by
  funext k s
  rw [Expression.run]

theorem oneChar_cons {p : Char → Bool} {c : Char} (hc : p c = true) :
    oneChar p k ⟨before, c :: rest, groups⟩ = k ⟨c :: before, rest, groups⟩ := by
  simp [oneChar, hc]

theorem oneChar_none {p : Char → Bool} (h : ∀ c cs, rest = c :: cs → p c = false) :
    oneChar p k ⟨before, rest, groups⟩ = none := by
  cases rest with
  | nil => rfl
  | cons c cs => simp [oneChar, h c cs rfl]

/-- A word that the text begins with. -/
theorem run_literal_append (w : List Char) (e : Expression) :
    (literal (· == ·) w e).run k ⟨before, w ++ rest, groups⟩ =
      e.run k ⟨w.reverse ++ before, rest, groups⟩ := by
  induction w generalizing before with
  | nil => rfl
  | cons c w ih =>
    have hstep : literal (· == ·) (c :: w) e = .seq (.char (c == ·)) (literal (· == ·) w e) := rfl
    rw [hstep, run_seq, Expression.run, List.cons_append, oneChar_cons (beq_self_eq_true c), ih,
      List.reverse_cons, List.append_assoc]
    rfl

theorem run_literal_none {w : List Char} (e : Expression) (h : ¬ w <+: rest) :
    (literal (· == ·) w e).run k ⟨before, rest, groups⟩ = none := by
  induction w generalizing before rest with
  | nil => exact absurd List.nil_prefix h
  | cons c w ih =>
    have hstep : literal (· == ·) (c :: w) e = .seq (.char (c == ·)) (literal (· == ·) w e) := rfl
    rw [hstep, run_seq, Expression.run]
    cases rest with
    | nil => rfl
    | cons d rest =>
      by_cases hd : c = d
      · subst hd
        rw [oneChar_cons (beq_self_eq_true c)]
        exact ih fun hprefix => h (List.cons_prefix_cons.mpr ⟨rfl, hprefix⟩)
      · exact oneChar_none fun x xs hx => by
          cases hx
          exact beq_eq_false_iff_ne.mpr hd

/-- One turn of a greedy repetition of one character. -/
theorem repeated_step (p : Char → Bool) (fuel : ℕ) (s : Cursor) :
    repeated (oneChar p) true [] k (fuel + 1) 0 none s =
      (oneChar p (repeated (oneChar p) true [] k fuel 0 none) s).or (k s) := by
  rw [repeated, if_neg (by simp)]
  simp only [Nat.lt_irrefl, if_false, if_true, Cursor.forget_nil, Option.map_none, Nat.zero_sub]
  congr 1
  obtain ⟨before, rest, groups⟩ := s
  cases rest with
  | nil => rfl
  | cons c cs =>
    simp only [oneChar]
    split
    · simp
    · rfl

theorem repeated_some {p : Char → Bool} {g : List Char} (hg : ∀ c ∈ g, p c = true)
    (hrest : ∀ c cs, rest = c :: cs → p c = false) {x : Cursor}
    (hk : k ⟨g.reverse ++ before, rest, groups⟩ = some x) {fuel : ℕ} (hfuel : g.length < fuel) :
    repeated (oneChar p) true [] k fuel 0 none ⟨before, g ++ rest, groups⟩ = some x := by
  induction g generalizing before fuel with
  | nil =>
    obtain ⟨fuel, rfl⟩ := Nat.exists_eq_add_one.mpr (Nat.zero_lt_of_lt hfuel)
    have hk' : k ⟨before, rest, groups⟩ = some x := hk
    rw [List.nil_append, repeated_step, oneChar_none hrest, hk']
    rfl
  | cons c g ih =>
    obtain ⟨fuel, rfl⟩ := Nat.exists_eq_add_one.mpr (Nat.zero_lt_of_lt hfuel)
    rw [List.cons_append, repeated_step, oneChar_cons (hg c (List.mem_cons_self ..)),
      ih (fun d hd => hg d (List.mem_cons_of_mem c hd)) (by simpa using hk) (by simpa using hfuel)]
    rfl

theorem repeated_none {p : Char → Bool}
    (hk : ∀ g r before', rest = g ++ r → (∀ c ∈ g, p c = true) → k ⟨before', r, groups⟩ = none)
    (fuel : ℕ) : repeated (oneChar p) true [] k fuel 0 none ⟨before, rest, groups⟩ = none := by
  induction fuel generalizing before rest with
  | zero => rfl
  | succ fuel ih =>
    rw [repeated_step, hk [] rest before rfl (by simp), Option.or_none]
    cases rest with
    | nil => rfl
    | cons c cs =>
      by_cases hc : p c = true
      · rw [oneChar_cons hc]
        refine ih fun g r before' heq hg => hk (c :: g) r before' (by rw [heq]; rfl) fun d hd => ?_
        rcases List.mem_cons.mp hd with rfl | hd
        · exact hc
        · exact hg d hd
      · exact oneChar_none fun d ds hd => by
          cases hd
          exact Bool.not_eq_true _ ▸ hc

/-- The longest run of characters of a set, when the rest matches after it. -/
theorem run_many_some {p : Char → Bool} {g : List Char} (hg : ∀ c ∈ g, p c = true)
    (hrest : ∀ c cs, rest = c :: cs → p c = false) {x : Cursor}
    (hk : k ⟨g.reverse ++ before, rest, groups⟩ = some x) :
    (many p).run k ⟨before, g ++ rest, groups⟩ = some x := by
  rw [many, Expression.run, run_char]
  exact repeated_some hg hrest hk (by simp only [List.length_append]; omega)

theorem run_many_none {p : Char → Bool}
    (hk : ∀ g r before', rest = g ++ r → (∀ c ∈ g, p c = true) → k ⟨before', r, groups⟩ = none) :
    (many p).run k ⟨before, rest, groups⟩ = none := by
  rw [many, Expression.run, run_char]
  exact repeated_none hk _

end Steps

/-! The quoted key and its value. -/

def quoted (w : List Char) : List Char := '"' :: (w ++ ['"'])

/-- Any character but the quotation mark. -/
def unquoted (c : Char) : Bool := !('"' == c || false)

/-- A quoted word, white space, and any quoted word. -/
def pairExpression (key : List Char) : Expression :=
  literal (· == ·) (quoted key) (.seq (many isSpace)
    (literal (· == ·) ['"'] (.seq (many unquoted) (literal (· == ·) ['"'] .empty))))

/-- A key that cannot be taken for what stands between two tokens. -/
structure KeyWord (key : List Char) : Prop where
  unquoted : '"' ∉ key
  begins : ∃ c w, key = c :: w ∧ isSpace c = false ∧ c ≠ '{' ∧ c ≠ '}'

section Pairs
variable {key : List Char} (hkey : KeyWord key)

theorem unquoted_iff {c : Char} : unquoted c = true ↔ c ≠ '"' := by
  rw [unquoted, Bool.or_false, Bool.not_eq_true', beq_eq_false_iff_ne]
  exact ne_comm

theorem quoted_append (w t : List Char) : quoted w ++ t = '"' :: (w ++ '"' :: t) := by
  simp [quoted]

/-- A string of the text read from its opening quotation mark. -/
theorem quoted_prefix_iff {w s t : List Char} (hw : '"' ∉ w) (hs : '"' ∉ s) :
    quoted w <+: '"' :: (s ++ '"' :: t) ↔ w = s := by
  constructor
  · rintro ⟨u, hu⟩
    rw [quoted_append, List.cons.injEq] at hu
    induction w generalizing s with
    | nil =>
      cases s with
      | nil => rfl
      | cons c s =>
        have hc : c = '"' := (List.cons.inj hu.2).1.symm
        exact absurd (List.mem_cons_self ..) (hc ▸ hs)
    | cons c w ih =>
      rw [List.mem_cons, not_or] at hw
      cases s with
      | nil => exact absurd (List.cons.inj hu.2).1.symm hw.1
      | cons d s =>
        rw [List.mem_cons, not_or] at hs
        obtain ⟨rfl, hrest⟩ := List.cons.inj hu.2
        rw [ih hw.2 hs.2 ⟨rfl, hrest⟩]
  · rintro rfl
    exact ⟨t, quoted_append w t⟩

include hkey in
/-- No key begins at a closing quotation mark. -/
theorem not_quoted_prefix_closing {ts : List Token} {t : List Char} (h : Layout ts t) :
    ¬ quoted key <+: '"' :: t := by
  obtain ⟨c, w, rfl, hspace, hopening, hclosing⟩ := hkey.begins
  rintro ⟨u, hu⟩
  rw [quoted_append, List.cons.injEq] at hu
  have ht : t = c :: (w ++ '"' :: u) := hu.2.symm
  have hquote : c ≠ '"' := fun hc => hkey.unquoted (hc ▸ List.mem_cons_self ..)
  have hfirst : ∀ {g : List Char} {d : Char} {r : List Char}, Gap g → g ++ d :: r = t → c = d := by
    intro g d r hg heq
    cases g with
    | nil => exact (List.cons.inj (ht.symm.trans heq.symm)).1
    | cons e g =>
      have he : c = e := (List.cons.inj (ht.symm.trans heq.symm)).1
      rw [he, hg e (List.mem_cons_self ..)] at hspace
      cases hspace
  cases h with
  | nil hg =>
    rw [hg c (ht ▸ List.mem_cons_self ..)] at hspace
    cases hspace
  | string hg hs h => exact hquote (hfirst hg rfl)
  | opening hg h => exact hopening (hfirst hg rfl)
  | closing hg h => exact hclosing (hfirst hg rfl)

theorem matchAt_pair_some {g v : List Char} (hg : Gap g) (hv : '"' ∉ v) (rest before : List Char) :
    ∃ x, (pairExpression key).matchAt before
      (quoted key ++ (g ++ quoted v ++ rest)) = some x ∧ x.rest = rest := by
  refine ⟨⟨(quoted key ++ g ++ quoted v).reverse ++ before, rest, fun _ => none⟩, ?_, rfl⟩
  have hvalue : ∀ c ∈ v, unquoted c = true := fun c hc => unquoted_iff.mpr fun h => hv (h ▸ hc)
  rw [Expression.matchAt, pairExpression, run_literal_append, run_seq, List.append_assoc]
  refine run_many_some hg (fun c cs hc => ?_) ?_
  · cases hc
    decide
  have hquoted : quoted v ++ rest = ['"'] ++ (v ++ (['"'] ++ rest)) := by simp [quoted]
  rw [hquoted, run_literal_append, run_seq]
  refine run_many_some hvalue (fun c cs hc => ?_) ?_
  · cases hc
    decide
  rw [run_literal_append, Expression.run]
  simp [quoted]

/-- Where the text does not read a key and a value, nothing is matched. -/
theorem matchAt_pair_none {before rest : List Char}
    (h : ∀ g v t, Gap g → '"' ∉ v → rest ≠ quoted key ++ (g ++ quoted v ++ t)) :
    (pairExpression key).matchAt before rest = none := by
  rw [Expression.matchAt, pairExpression]
  by_cases hprefix : quoted key <+: rest
  · obtain ⟨afterKey, rfl⟩ := hprefix
    rw [run_literal_append, run_seq]
    refine run_many_none fun g afterGap before' heq hg => ?_
    by_cases hquote : ['"'] <+: afterGap
    · obtain ⟨afterQuote, rfl⟩ := hquote
      rw [run_literal_append, run_seq]
      refine run_many_none fun v afterValue before' heqv hv => ?_
      refine run_literal_none _ ?_
      rintro ⟨t, rfl⟩
      refine h g v t hg (fun hmem => unquoted_iff.mp (hv _ hmem) rfl) ?_
      rw [heq, heqv]
      simp [quoted]
    · exact run_literal_none _ hquote
  · exact run_literal_none _ hprefix

end Pairs

end Disping.Text
