import Disping.Text.Matching

/-! # What replacing pairs in a text does to its tokens -/
namespace Disping.Text

/-- Adjacent strings of which the first is the key, from the left, with a new second string. -/
def setPairs (key v : List Char) : List Token → List Token
  | .string k :: .string x :: ts =>
    if k = key then .string key :: .string v :: setPairs key v ts
    else .string k :: setPairs key v (.string x :: ts)
  | t :: ts => t :: setPairs key v ts
  | [] => []

/-- Without the key the pair is put at the end. -/
def editPairs (key v : List Char) (ts : List Token) : List Token :=
  if .string key ∈ ts then setPairs key v ts else ts ++ [.string key, .string v]

section Tokens
variable {key v : List Char}

/-- A string that begins no pair stays. -/
theorem setPairs_string {s : List Char} {ts : List Token} (h : s = key → ∀ x us, ts ≠ .string x :: us) :
    setPairs key v (.string s :: ts) = .string s :: setPairs key v ts := by
  cases ts with
  | nil => rfl
  | cons x ts =>
    cases x with
    | string t => rw [setPairs, if_neg fun hs => h hs t ts rfl]
    | opening => rfl
    | closing => rfl

theorem length_setPairs (ts : List Token) : (setPairs key v ts).length = ts.length := by
  induction ts using setPairs.induct key with
  | case1 x ts ih => rw [setPairs, if_pos rfl, List.length_cons, List.length_cons, ih]; rfl
  | case2 k x ts hk ih => rw [setPairs, if_neg hk, List.length_cons, ih]; rfl
  | case3 t ts ht ih =>
    rw [setPairs, List.length_cons, ih, List.length_cons]
    exact ht
  | case4 => rfl

theorem length_editPairs (ts : List Token) :
    (editPairs key v ts).length = ts.length + if .string key ∈ ts then 0 else 2 := by
  unfold editPairs
  split
  · exact length_setPairs ts
  · simp

theorem setPairs_braces {bs : List Token} (hbs : ∀ s, .string s ∉ bs) (ts : List Token) :
    setPairs key v (bs ++ ts) = bs ++ setPairs key v ts := by
  induction bs with
  | nil => rfl
  | cons x bs ih =>
    have hrest := ih fun s hs => hbs s (List.mem_cons_of_mem x hs)
    cases x with
    | string s => exact absurd List.mem_cons_self (hbs s)
    | opening => simp [setPairs, hrest]
    | closing => simp [setPairs, hrest]

/-- Braces behind the tokens stay. -/
theorem setPairs_append_braces {bs : List Token} (hbs : ∀ s, .string s ∉ bs) (ts : List Token) :
    setPairs key v (ts ++ bs) = setPairs key v ts ++ bs := by
  have hnone : setPairs key v bs = bs := by simpa [setPairs] using setPairs_braces hbs []
  induction ts using setPairs.induct key with
  | case1 x ts ih => simp [setPairs, ih]
  | case2 k x ts hk ih =>
    simp only [List.cons_append, setPairs, if_neg hk] at ih ⊢
    rw [ih]
  | case3 t ts ht ih =>
    cases t with
    | opening => simp [setPairs, ih]
    | closing => simp [setPairs, ih]
    | string k =>
      have hother : ∀ us : List Token, (∀ x vs, ts = .string x :: vs → False) → k = key → ∀ x vs,
          ts ++ bs ≠ .string x :: vs := by
        rintro - hts - x vs hvs
        cases ts with
        | nil =>
          obtain rfl := hvs
          exact hbs x List.mem_cons_self
        | cons y ts => exact hts x ts (by rw [(List.cons.inj hvs).1])
      rw [List.cons_append, setPairs_string (hother ts fun x vs h => ht k x vs rfl h), ih, setPairs_string]
      · rfl
      · exact fun _ x vs h => ht k x vs rfl h
  | case4 => exact hnone

theorem editPairs_braces {bs : List Token} (hbs : ∀ s, .string s ∉ bs) (ts : List Token) :
    editPairs key v (bs ++ ts) = bs ++ editPairs key v ts := by
  have hmem : Token.string key ∈ bs ++ ts ↔ .string key ∈ ts := by
    rw [List.mem_append, or_iff_right (hbs key)]
  unfold editPairs
  rw [if_congr hmem rfl rfl, setPairs_braces hbs, List.append_assoc]
  split <;> rfl

end Tokens

section Places
variable {e : Expression} {new before : List Char}

theorem replaceFrom_none {c : Char} {t : List Char} (h : e.matchAt before (c :: t) = none) :
    e.replaceFrom new before 0 (c :: t) = c :: e.replaceFrom new (c :: before) 0 t := by
  rw [Expression.replaceFrom, h]

theorem replaceFrom_inside (w t : List Char) : e.replaceFrom new before w.length (w ++ t) =
    e.replaceFrom new (w.reverse ++ before) 0 t := by
  induction w generalizing before with
  | nil => rfl
  | cons c w ih =>
    rw [List.cons_append, List.length_cons, Expression.replaceFrom, ih, List.reverse_cons,
      List.append_assoc]
    rfl

theorem replaceFrom_some {c : Char} {w t : List Char} {x : Cursor}
    (h : e.matchAt before (c :: (w ++ t)) = some x) (hx : x.rest = t) :
    e.replaceFrom new before 0 (c :: (w ++ t)) =
      new ++ e.replaceFrom new ((c :: w).reverse ++ before) 0 t := by
  have hlength : (w ++ t).length - x.rest.length = w.length := by simp [hx]
  rw [Expression.replaceFrom, h]
  simp only
  rw [hlength, replaceFrom_inside, List.reverse_cons, List.append_assoc]
  rfl

end Places

section Pairs
variable {key : List Char} (new before : List Char)

theorem matchAt_unquoted {c : Char} {t : List Char} (hc : c ≠ '"') :
    (pairExpression key).matchAt before (c :: t) = none := by
  refine matchAt_pair_none fun g v u _ _ heq => hc ?_
  rw [quoted_append] at heq
  exact (List.cons.inj heq).1

/-- Text without quotation marks stays. -/
theorem replaceFrom_unquoted {p : List Char} (hp : '"' ∉ p) (t : List Char) :
    (pairExpression key).replaceFrom new before 0 (p ++ t) =
      p ++ (pairExpression key).replaceFrom new (p.reverse ++ before) 0 t := by
  induction p generalizing before with
  | nil => rfl
  | cons c p ih =>
    rw [List.mem_cons, not_or] at hp
    rw [List.cons_append, replaceFrom_none (matchAt_unquoted _ (Ne.symm hp.1)), ih _ hp.2,
      List.reverse_cons, List.append_assoc]
    rfl

theorem Gap.unquoted {g : List Char} (hg : Gap g) : '"' ∉ g := fun h => absurd (hg _ h) (by decide)

/-- What a text that begins with a quoted word has as its first token. -/
theorem Layout.first_string {g v u : List Char} (hg : Gap g) (hv : '"' ∉ v) {ts : List Token}
    (h : Layout ts (g ++ quoted v ++ u)) : ∃ us, ts = .string v :: us := by
  rw [← tokenize_eq_some_iff, List.append_assoc, tokenize_spaces hg, quoted_append, tokenize,
    if_pos rfl, tokenizeString_append hv, Option.map_map] at h
  obtain ⟨us, -, rfl⟩ := Option.map_eq_some_iff.mp h
  exact ⟨us, rfl⟩

theorem quoted_infix_append {p t : List Char} (hp : '"' ∉ p) :
    quoted key <:+: p ++ t ↔ quoted key <:+: t := by
  induction p with
  | nil => rfl
  | cons c p ih =>
    rw [List.mem_cons, not_or] at hp
    rw [List.cons_append, List.infix_cons_iff, ih hp.2, or_iff_right]
    rintro ⟨u, hu⟩
    exact hp.1 (List.cons.inj hu).1

end Pairs

end Disping.Text
