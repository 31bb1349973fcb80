import Disping.Text.Integers
import Disping.Text.PairSegments
import Disping.Text.PlainPattern

/-! # Counters in a text

A quoted key, a colon and a number in digits, with white space around the colon, and the expression
that finds it.
-/
namespace Disping.Text

/-- `[0-9]` -/
def digitClass (c : Char) : Bool := inRange false '0' '9' c || false

theorem digitClass_eq (c : Char) : digitClass c = c.isDigit := by
  rw [digitClass, Bool.or_false, inRange, if_neg Bool.false_ne_true, Char.isDigit]
  exact Bool.decide_and _ _

/-- `"key"\s*:\s*([0-9]+)` -/
def counterExpression (key : List Char) : Expression :=
  literal (· == ·) (quoted key) (.seq (many isSpace) (literal (· == ·) [':'] (.seq (many isSpace)
    (.seq (.group 1 (.seq (.turns 1 none true [] (.char digitClass)) .empty)) .empty))))

def counterText (key g h d : List Char) : List Char := quoted key ++ (g ++ ':' :: (h ++ d))

/-- The text goes on with no further digit. -/
def NoDigit (rest : List Char) : Prop := ∀ c cs, rest = c :: cs → c.isDigit = false

/-- The text begins with a counter of the key; `g` and `h` stand around the colon, `d` is the number. -/
structure ReadsCounter (key g h d rest text : List Char) : Prop where
  text_eq : text = counterText key g h d ++ rest
  before : Gap g
  after : Gap h
  decimal : Decimal d
  stops : NoDigit rest

def BeginsCounter (key text : List Char) : Prop := ∃ g h d rest, ReadsCounter key g h d rest text

/-- The pattern of a key in plain characters compiles to the expression of its counter. -/
theorem regex_counter {key : List Char} (hkey : ∀ c ∈ key, Plain c) :
    regex (quoted key ++ "\\s*:\\s*([0-9]+)".toList) false = some (counterExpression key) := by
  let atoms : List Expression := (quoted key).map fun c => .char (same false c)
  let others : List PatternToken := [.atom (.char isSpace), .quantifier 0 none true,
    .atom (.char (same false ':')), .atom (.char isSpace), .quantifier 0 none true, .openGroup,
    .atom (.char digitClass), .quantifier 1 none true, .close]
  have hothers : patternTokens false "\\s*:\\s*([0-9]+)".toList.length "\\s*:\\s*([0-9]+)".toList =
      some others := rfl
  have htokens : patternTokens false (quoted key ++ "\\s*:\\s*([0-9]+)".toList).length
      (quoted key ++ "\\s*:\\s*([0-9]+)".toList) = some (atoms.map .atom ++ others) := by
    rw [List.length_append, patternTokens_plain (plain_quoted hkey), hothers]
    simp [atoms, Function.comp_def]
  obtain ⟨g, hg, hsettled, hended⟩ := assemble_atoms atoms others 0 (.opened .atom)
  let number : Expression := .group 1 (.seq (.turns 1 none true [] (.char digitClass)) .empty)
  let f : Frame := { g with
    terms := many isSpace :: .char (same false ':') :: many isSpace :: g.settled
    last := some number }
  have hrun : assemble others 0 g [] = if ∀ n ∈ f.body.backrefs, n ≤ 1 then some f.body else none := rfl
  have hbody : f.body = counterExpression key := by
    have hnone : f.ended = [] := hended
    have hterms : f.settled = number :: many isSpace :: .char (same false ':') :: many isSpace ::
        atoms.reverse := by
      have hfirst : g.settled = atoms.reverse := hsettled.trans (List.append_nil _)
      rw [← hfirst]
      rfl
    rw [Frame.body, hnone, List.foldl_nil, Frame.alternative, hterms, counterExpression, literal_eq_foldr]
    simp only [List.foldl_cons, List.foldl_reverse]
    rfl
  have hrefs : (counterExpression key).backrefs = [] := by
    rw [counterExpression, literal_eq_foldr, literal_eq_foldr, backrefs_foldr]
    simp [Expression.backrefs, many, List.flatMap_map]
  rw [regex, htokens, Option.bind_some, hg, hrun, hbody, hrefs, if_pos fun _ hn => absurd hn List.not_mem_nil]

section Digits
variable {k : Continuation} {before rest : List Char} {groups : ℕ → Option (List Char)}

/-- The first turn of a repetition that takes at least one. -/
theorem repeated_one (p : Char → Bool) (fuel : ℕ) (s : Cursor) :
    repeated (oneChar p) true [] k (fuel + 1) 1 none s =
      oneChar p (repeated (oneChar p) true [] k fuel 0 none) s := by
  rw [repeated, if_neg (by simp)]
  simp

theorem run_some_some {p : Char → Bool} {d : List Char} (hne : d ≠ []) (hd : ∀ c ∈ d, p c = true)
    (hrest : ∀ c cs, rest = c :: cs → p c = false) {x : Cursor}
    (hk : k ⟨d.reverse ++ before, rest, groups⟩ = some x) :
    (Expression.turns 1 none true [] (.char p)).run k ⟨before, d ++ rest, groups⟩ = some x := by
  obtain ⟨c, cs, rfl⟩ := List.exists_cons_of_ne_nil hne
  rw [Expression.run, run_char, repeated_one, List.cons_append, oneChar_cons (hd c (List.mem_cons_self ..))]
  refine repeated_some (fun e he => hd e (List.mem_cons_of_mem c he)) hrest (by simpa using hk) ?_
  simp only [List.length_cons, List.length_append]
  omega

theorem run_some_none {p : Char → Bool} (h : ∀ c cs, rest = c :: cs → p c = false) :
    (Expression.turns 1 none true [] (.char p)).run k ⟨before, rest, groups⟩ = none := by
  rw [Expression.run, run_char, repeated_one, oneChar_none h]

@[simp] theorem Cursor.taken_append (w : List Char) (rest' : List Char) (groups' : ℕ → Option (List Char)) :
    (Cursor.mk before rest groups).taken ⟨w.reverse ++ before, rest', groups'⟩ = w := by
  simp [Cursor.taken]

end Digits

section Reading
variable {key g h d rest text before : List Char}

theorem counterText_append : counterText key g h d ++ rest =
    quoted key ++ (g ++ ([':'] ++ (h ++ (d ++ rest)))) := by
  simp [counterText]

theorem matchAt_counter_some (hread : ReadsCounter key g h d rest text) (before : List Char) :
    ∃ x, (counterExpression key).matchAt before text = some x ∧ x.rest = rest ∧ x.groups 1 = some d := by
  obtain ⟨rfl, hg, hh, hd, hstops⟩ := hread
  have hdigits : ∀ c ∈ d, digitClass c = true := fun c hc => digitClass_eq c ▸ hd.digits c hc
  have hrest : ∀ c cs, rest = c :: cs → digitClass c = false :=
    fun c cs hc => digitClass_eq c ▸ hstops c cs hc
  have hfirst : ∀ c cs, d ++ rest = c :: cs → isSpace c = false := by
    intro c cs hc
    obtain ⟨e, es, rfl⟩ := List.exists_cons_of_ne_nil hd.nonempty
    rw [List.cons_append, List.cons.injEq] at hc
    exact isSpace_of_isDigit (hc.1 ▸ hd.digits e (List.mem_cons_self ..))
  refine ⟨⟨d.reverse ++ (h.reverse ++ ([':'].reverse ++ (g.reverse ++ ((quoted key).reverse ++ before)))),
    rest, Function.update (fun _ => none) 1 (some d)⟩, ?_, rfl, by simp⟩
  rw [Expression.matchAt, counterExpression, counterText_append, run_literal_append, run_seq]
  refine run_many_some hg (fun c cs hc => ?_) ?_
  · cases hc
    decide
  rw [run_literal_append, run_seq]
  refine run_many_some hh hfirst ?_
  rw [run_seq, Expression.run, run_seq]
  refine run_some_some hd.nonempty hdigits hrest ?_
  simp [Expression.run, Cursor.hold]

theorem matchAt_counter_none (hnot : ¬ BeginsCounter key text) :
    (counterExpression key).matchAt before text = none := by
  rw [Expression.matchAt, counterExpression]
  by_cases hkey : quoted key <+: text
  · obtain ⟨afterKey, rfl⟩ := hkey
    rw [run_literal_append, run_seq]
    refine run_many_none fun g afterGap before' hgap hg => ?_
    by_cases hcolon : [':'] <+: afterGap
    · obtain ⟨afterColon, rfl⟩ := hcolon
      rw [run_literal_append, run_seq]
      refine run_many_none fun h number before' hnumber hh => ?_
      rw [run_seq, Expression.run, run_seq]
      apply run_some_none
      intro c cs hc
      rw [digitClass_eq, ← Bool.not_eq_true]
      intro hdigit
      apply hnot
      refine ⟨g, h, number.takeWhile Char.isDigit, number.dropWhile Char.isDigit, ?_, hg, hh, ⟨?_, ?_⟩, ?_⟩
      · rw [counterText_append, List.takeWhile_append_dropWhile, hgap, hnumber]
      · rw [hc, List.takeWhile_cons_of_pos hdigit]
        exact List.cons_ne_nil _ _
      · exact fun e he => List.mem_takeWhile_imp he
      · intro e es he
        have hhead := List.head?_dropWhile_not Char.isDigit number
        rw [he] at hhead
        simpa using hhead
    · exact run_literal_none _ hcolon
  · exact run_literal_none _ hkey

end Reading

/-! A text reads as a counter in one way, and no counter begins inside another. -/

/-- A key of letters, digits and underscores. -/
structure CounterKey (key : List Char) : Prop where
  word : ∀ c ∈ key, wordChar c = true
  nonempty : key ≠ []

theorem CounterKey.unquoted {key : List Char} (hkey : CounterKey key) : '"' ∉ key :=
  fun h => absurd (hkey.word _ h) (by decide)

/-- The longest run of characters of a set at the beginning of a text. -/
theorem run_unique {p : Char → Bool} {a b t u : List Char} (ha : ∀ c ∈ a, p c = true)
    (hb : ∀ c ∈ b, p c = true) (ht : ∀ c cs, t = c :: cs → p c = false)
    (hu : ∀ c cs, u = c :: cs → p c = false) (h : a ++ t = b ++ u) : a = b ∧ t = u := by
  induction a generalizing b with
  | nil =>
    cases b with
    | nil => exact ⟨rfl, h⟩
    | cons c b =>
      have hc := ht c (b ++ u) h
      rw [hb c (List.mem_cons_self ..)] at hc
      cases hc
  | cons c a ih =>
    cases b with
    | nil =>
      have hc := hu c (a ++ t) h.symm
      rw [ha c (List.mem_cons_self ..)] at hc
      cases hc
    | cons d b =>
      rw [List.cons_append, List.cons_append, List.cons.injEq] at h
      obtain ⟨rfl, h⟩ := h
      obtain ⟨rfl, rfl⟩ := ih (fun e he => ha e (List.mem_cons_of_mem c he))
        (fun e he => hb e (List.mem_cons_of_mem c he)) h
      exact ⟨rfl, rfl⟩

section Places
variable {key key' g g' h h' d d' rest rest' text : List Char}

theorem counterText_cons : counterText key g h d = '"' :: (key ++ '"' :: (g ++ ':' :: (h ++ d))) := by
  simp [counterText, quoted]

theorem ReadsCounter.quoted_prefix (hread : ReadsCounter key g h d rest text) :
    quoted key <+: text := by
  rw [hread.text_eq, counterText_append]
  exact List.prefix_append _ _

theorem ReadsCounter.ne_nil (hread : ReadsCounter key g h d rest text) : text ≠ [] := by
  rintro rfl
  have hlength := hread.quoted_prefix.length_le
  simp [quoted] at hlength

theorem ReadsCounter.key_eq (hkey : CounterKey key) (hkey' : CounterKey key')
    (hread : ReadsCounter key g h d rest text) (hquoted : quoted key' <+: text) : key' = key := by
  rw [hread.text_eq, counterText_cons, List.cons_append, List.append_assoc, List.cons_append] at hquoted
  exact (quoted_prefix_iff hkey'.unquoted hkey.unquoted).mp hquoted

theorem ReadsCounter.unique (hread : ReadsCounter key g h d rest text)
    (hread' : ReadsCounter key g' h' d' rest' text) : g = g' ∧ h = h' ∧ d = d' ∧ rest = rest' := by
  have htext := hread.text_eq.symm.trans hread'.text_eq
  rw [counterText_append, counterText_append, List.append_cancel_left_eq] at htext
  have hcolon : ∀ t c cs, [':'] ++ t = c :: cs → isSpace c = false := by
    intro t c cs hc
    cases hc
    decide
  have hdigit : ∀ {d : List Char}, Decimal d → ∀ t c cs, d ++ t = c :: cs → isSpace c = false := by
    intro d hd t c cs hc
    obtain ⟨e, es, rfl⟩ := List.exists_cons_of_ne_nil hd.nonempty
    rw [List.cons_append, List.cons.injEq] at hc
    exact isSpace_of_isDigit (hc.1 ▸ hd.digits e (List.mem_cons_self ..))
  obtain ⟨rfl, hcolons⟩ := run_unique hread.before hread'.before (hcolon _) (hcolon _) htext
  obtain ⟨rfl, hnumbers⟩ := run_unique hread.after hread'.after (hdigit hread.decimal _)
    (hdigit hread'.decimal _) (List.append_cancel_left hcolons)
  obtain ⟨rfl, rfl⟩ := run_unique hread.decimal.digits hread'.decimal.digits hread.stops hread'.stops hnumbers
  exact ⟨rfl, rfl, rfl, rfl⟩

theorem counterText_unquoted (hg : Gap g) (hh : Gap h) (hd : Decimal d) : '"' ∉ g ++ ':' :: (h ++ d) := by
  have hdigits : '"' ∉ d := fun hc => absurd (hd.digits _ hc) (by decide)
  simp [hg.unquoted, hh.unquoted, hdigits]

/-- What stands behind the first quotation mark of a counter begins with no quoted key. -/
theorem not_quoted_inside (hkey : CounterKey key) (hkey' : CounterKey key') (hg : Gap g) (hh : Gap h)
    (hd : Decimal d) {a b : List Char} (hsplit : counterText key' g h d = a ++ b) (ha : a ≠ [])
    (hb : b ≠ []) (rest : List Char) : ¬ quoted key <+: b ++ rest := by
  rintro ⟨u, hu⟩
  obtain ⟨c, a, rfl⟩ := List.exists_cons_of_ne_nil ha
  obtain ⟨e, b, rfl⟩ := List.exists_cons_of_ne_nil hb
  rw [counterText_cons, List.cons_append, List.cons.injEq] at hsplit
  rw [quoted_append, List.cons_append, List.cons.injEq] at hu
  obtain ⟨rfl, hu⟩ := hu
  rcases split_at_quote hkey'.unquoted hsplit.2 with ⟨-, rfl⟩ | ⟨a', -, hinside⟩
  · -- behind the key stands white space or the colon, with which no key begins
    obtain ⟨k, w, rfl⟩ := List.exists_cons_of_ne_nil hkey.nonempty
    have hword : wordChar k = true := hkey.word k (List.mem_cons_self ..)
    cases g with
    | nil =>
      have hk : k = ':' := (List.cons.inj hu).1
      rw [hk] at hword
      exact absurd hword (by decide)
    | cons s g =>
      have hk : k = s := (List.cons.inj hu).1
      rw [hk, wordChar_of_isSpace (hg s (List.mem_cons_self ..))] at hword
      cases hword
  · apply counterText_unquoted hg hh hd
    rw [hinside]
    simp

end Places

/-! The first counter of a text. -/

/-- The first counter of the key has this number. -/
def FirstCounter (key text d : List Char) : Prop :=
  ∃ a b g h rest, text = a ++ b ∧ ReadsCounter key g h d rest b ∧
    ∀ a₁ a₂, a = a₁ ++ a₂ → a₂ ≠ [] → ¬ BeginsCounter key (a₂ ++ b)

section Search
variable {key text d : List Char}

theorem FirstCounter.decimal (hfirst : FirstCounter key text d) : Decimal d := by
  obtain ⟨a, b, g, h, rest, -, hread, -⟩ := hfirst
  exact hread.decimal

theorem FirstCounter.search (hfirst : FirstCounter key text d) :
    ∃ n x, regexSearch (counterExpression key) text = some (n, x) ∧ x.groups 1 = some d := by
  obtain ⟨a, b, g, h, rest, rfl, hread, hbefore⟩ := hfirst
  obtain ⟨x, hx, -, hd⟩ := matchAt_counter_some hread (a.reverse ++ [])
  refine ⟨(a.reverse ++ []).length, x, ?_, hd⟩
  rw [regexSearch, searchFrom_append, searchFrom_some hx]
  exact fun a₁ a₂ ha hne => matchAt_counter_none (hbefore a₁ a₂ ha hne)

/-- The first number, behind a text without quotation marks. -/
theorem FirstCounter.of_unquoted {p b g h rest : List Char} (hp : '"' ∉ p)
    (hread : ReadsCounter key g h d rest b) : FirstCounter key (p ++ b) d := by
  refine ⟨p, b, g, h, rest, rfl, hread, ?_⟩
  rintro a₁ a₂ rfl hne ⟨g, h, d, rest, hread⟩
  obtain ⟨c, a₂, rfl⟩ := List.exists_cons_of_ne_nil hne
  obtain ⟨u, hu⟩ := hread.quoted_prefix
  rw [quoted_append, List.cons_append, List.cons.injEq] at hu
  apply hp
  rw [← hu.1]
  simp

theorem FirstCounter.unique {d' : List Char} (hfirst : FirstCounter key text d)
    (hfirst' : FirstCounter key text d') : d = d' := by
  obtain ⟨n, x, hx, hd⟩ := hfirst.search
  obtain ⟨m, y, hy, hd'⟩ := hfirst'.search
  rw [hx] at hy
  cases hy
  exact Option.some.inj (hd.symm.trans hd')

theorem regexSearch_counter_some {n : ℕ} {x : Cursor}
    (h : regexSearch (counterExpression key) text = some (n, x)) :
    ∃ d, FirstCounter key text d ∧ x.groups 1 = some d := by
  obtain ⟨a, b, rfl, -, hb, hbefore⟩ := searchFrom_split h
  have hnone : ∀ {t before}, (counterExpression key).matchAt before t = none → ¬ BeginsCounter key t := by
    rintro t before hnone ⟨g, h, d, rest, hread⟩
    obtain ⟨y, hy, -⟩ := matchAt_counter_some hread before
    rw [hnone] at hy
    cases hy
  by_cases hbegins : BeginsCounter key b
  · obtain ⟨g, h, d, rest, hread⟩ := hbegins
    obtain ⟨y, hy, -, hd⟩ := matchAt_counter_some hread (a.reverse ++ [])
    rw [hb] at hy
    cases hy
    exact ⟨d, ⟨a, b, g, h, rest, rfl, hread, fun a₁ a₂ ha hne => hnone (hbefore a₁ a₂ ha hne)⟩, hd⟩
  · rw [matchAt_counter_none hbegins] at hb
    cases hb

end Search

end Disping.Text
