import Disping.Text.Counters

/-! # Counters set to zero

What replacing the counters of several keys one key after the other does to a text: every counter is
zero afterwards, and the text between counters is the same.
-/
namespace Disping.Text

/-- The counters of the keys set to zero in a text. What stands around a colon becomes what `blank` makes
of it, and everything else stays. -/
inductive Zeroed (keys : List (List Char)) (blank : List Char → List Char) :
    List Char → List Char → Prop
  | nil : Zeroed keys blank [] []
  | counter {key g h d rest rest' text} : key ∈ keys → ReadsCounter key g h d rest text →
    Zeroed keys blank rest rest' →
    Zeroed keys blank text (counterText key (blank g) (blank h) ['0'] ++ rest')
  | other {c t t'} : (∀ key ∈ keys, ¬ BeginsCounter key (c :: t)) → Zeroed keys blank t t' →
    Zeroed keys blank (c :: t) (c :: t')

/-- No quoted key of the list begins in the first part. -/
def FreeOf (keys : List (List Char)) (m r : List Char) : Prop :=
  ∀ a b, m = a ++ b → b ≠ [] → ∀ key ∈ keys, ¬ quoted key <+: b ++ r

/-- No counter of the keys has white space around its colon. -/
def Tight (keys : List (List Char)) (t : List Char) : Prop :=
  ∀ a b, t = a ++ b → ∀ key ∈ keys, ∀ g h d rest, ReadsCounter key g h d rest b → g = [] ∧ h = []

theorem tight_of_spaceless (keys : List (List Char)) {t : List Char} (h : ∀ c ∈ t, isSpace c = false) :
    Tight keys t := by
  rintro a b rfl key - g g' d rest hread
  have hnone : ∀ s, Gap s → (∀ c ∈ s, c ∈ b) → s = [] := by
    intro s hs hin
    apply List.eq_nil_iff_forall_not_mem.mpr
    intro c hc
    have hspace := hs c hc
    rw [h c (List.mem_append_right a (hin c hc))] at hspace
    cases hspace
  refine ⟨hnone g hread.before fun c hc => ?_, hnone g' hread.after fun c hc => ?_⟩ <;>
    simp [hread.text_eq, counterText, hc]

theorem FreeOf.tail {keys : List (List Char)} {c : Char} {m r : List Char} (h : FreeOf keys (c :: m) r) :
    FreeOf keys m r := by
  rintro a b rfl hb
  exact h (c :: a) b rfl hb

theorem decimal_zero : Decimal ['0'] := by decide

theorem gap_nil : Gap [] := fun _ h => absurd h List.not_mem_nil

theorem freeOf_counter {keys : List (List Char)} (hkeys : ∀ key ∈ keys, CounterKey key)
    {key g h d : List Char} (hkey : CounterKey key) (hg : Gap g) (hh : Gap h) (hd : Decimal d)
    (r : List Char) : FreeOf keys (key ++ '"' :: (g ++ ':' :: (h ++ d))) r := by
  intro a b hsplit hb k hk
  refine not_quoted_inside (hkeys k hk) hkey hg hh hd (a := '"' :: a) ?_ (List.cons_ne_nil _ _) hb r
  rw [counterText_cons, hsplit]
  rfl

namespace Zeroed
variable {keys : List (List Char)} {blank : List Char → List Char} {t u v : List Char}

/-- Text in which no key begins stays. -/
theorem passes {m r : List Char} (hfree : FreeOf keys m r) (h : Zeroed keys blank (m ++ r) v) :
    ∃ r', v = m ++ r' ∧ Zeroed keys blank r r' := by
  induction m generalizing v with
  | nil => exact ⟨v, rfl, h⟩
  | cons c m ih =>
    cases h with
    | counter hkey hread hrest =>
      exact absurd hread.quoted_prefix (hfree [] (c :: m) rfl (List.cons_ne_nil c m) _ hkey)
    | other hnot h =>
      obtain ⟨r', rfl, hr⟩ := ih hfree.tail h
      exact ⟨r', rfl, hr⟩

/-- Text in which no key begins was there before. -/
theorem stems {m r' : List Char} (hfree : FreeOf keys m r') (h : Zeroed keys blank t (m ++ r')) :
    ∃ r, t = m ++ r ∧ Zeroed keys blank r r' := by
  induction m generalizing t with
  | nil => exact ⟨t, rfl, h⟩
  | cons c m ih =>
    generalize hu : (c :: m) ++ r' = u at h
    cases h with
    | nil => cases hu
    | @counter key g h d rest rest' text hkey hread hrest =>
      refine absurd ?_ (hfree [] (c :: m) rfl (List.cons_ne_nil c m) key hkey)
      rw [hu, counterText_append]
      exact List.prefix_append _ _
    | other hnot h =>
      cases hu
      obtain ⟨r, rfl, hr⟩ := ih hfree.tail h
      exact ⟨r, rfl, hr⟩

theorem head?_eq (h : Zeroed keys blank t u) : t.head? = u.head? := by
  cases h with
  | nil => rfl
  | counter hkey hread hrest => rw [hread.text_eq, counterText_cons, counterText_cons]; rfl
  | other hnot h => rfl

end Zeroed

theorem NoDigit.congr {r r' : List Char} (hhead : r.head? = r'.head?) (h : NoDigit r) : NoDigit r' := by
  rintro c cs rfl
  cases r with
  | nil => cases hhead
  | cons e r =>
    cases hhead
    exact h c r rfl

/-! What begins a counter before begins one afterwards, and nothing else does. -/

section Occurrences
variable {keys : List (List Char)} {blank : List Char → List Char} {t u v : List Char}
  {key g h d rest : List Char} (hkeys : ∀ key ∈ keys, CounterKey key)
include hkeys

/-- A counter of another key, whose first quotation mark stays. -/
theorem Zeroed.keeps_counter {c : Char} (hkey : CounterKey key)
    (hread : ReadsCounter key g h d rest (c :: t)) (hz : Zeroed keys blank t u) :
    ∃ rest', ReadsCounter key g h d rest' (c :: u) ∧ Zeroed keys blank rest rest' := by
  have htext := hread.text_eq
  rw [counterText_cons, List.cons_append, List.cons.injEq] at htext
  obtain ⟨rfl, rfl⟩ := htext
  obtain ⟨rest', rfl, hrest⟩ :=
    hz.passes (freeOf_counter hkeys hkey hread.before hread.after hread.decimal rest)
  refine ⟨rest', ⟨?_, hread.before, hread.after, hread.decimal, hread.stops.congr hrest.head?_eq⟩, hrest⟩
  rw [counterText_cons]
  rfl

theorem Zeroed.had_counter {c : Char} (hkey : CounterKey key)
    (hread : ReadsCounter key g h d rest (c :: u)) (hz : Zeroed keys blank t u) :
    ∃ rest', ReadsCounter key g h d rest' (c :: t) ∧ Zeroed keys blank rest' rest := by
  have htext := hread.text_eq
  rw [counterText_cons, List.cons_append, List.cons.injEq] at htext
  obtain ⟨rfl, rfl⟩ := htext
  obtain ⟨rest', rfl, hrest⟩ :=
    hz.stems (freeOf_counter hkeys hkey hread.before hread.after hread.decimal rest)
  refine ⟨rest', ⟨?_, hread.before, hread.after, hread.decimal, hread.stops.congr hrest.head?_eq.symm⟩, hrest⟩
  rw [counterText_cons]
  rfl

/-- A place behind the beginning of a counter that reads as one is behind the whole counter. -/
theorem behind_counter (hkey : CounterKey key) (hg : Gap g) (hh : Gap h) (hd : Decimal d)
    {a b r key' : List Char} (hsplit : counterText key g h d ++ r = a ++ b) (ha : a ≠ [])
    (hkey' : key' ∈ keys) (hb : quoted key' <+: b) :
    ∃ a', a = counterText key g h d ++ a' ∧ r = a' ++ b := by
  rcases List.append_eq_append_iff.mp hsplit with ⟨a', rfl, rfl⟩ | ⟨b', hcounter, rfl⟩
  · exact ⟨a', rfl, rfl⟩
  · by_cases hempty : b' = []
    · subst hempty
      rw [List.append_nil] at hcounter
      exact ⟨[], by rw [hcounter, List.append_nil], rfl⟩
    · exact absurd hb (not_quoted_inside (hkeys key' hkey') hkey hg hh hd hcounter ha hempty r)

variable (hblank : ∀ g, Gap g → Gap (blank g))
include hblank

omit hkeys in
/-- The counter that an edit writes is read as one. -/
theorem ReadsCounter.zeroed {rest' text : List Char} (hread : ReadsCounter key g h d rest text)
    (hrest : Zeroed keys blank rest rest') :
    ReadsCounter key (blank g) (blank h) ['0'] rest' (counterText key (blank g) (blank h) ['0'] ++ rest') :=
  ⟨rfl, hblank g hread.before, hblank h hread.after, decimal_zero, hread.stops.congr hrest.head?_eq⟩

/-- Every counter of the new text is zero and was one of the old text. -/
theorem Zeroed.zero (hz : Zeroed keys blank t u) {a b : List Char} (hsplit : u = a ++ b)
    (hkey : key ∈ keys) (hread : ReadsCounter key g h d rest b) :
    d = ['0'] ∧ ∃ g₀ h₀, g = blank g₀ ∧ h = blank h₀ := by
  induction hz generalizing a with
  | nil =>
    exact absurd (List.append_eq_nil_iff.mp hsplit.symm).2 hread.ne_nil
  | @counter key₀ g₀ h₀ d₀ rest₀ rest' text hkey₀ hread₀ hrest ih =>
    have hnew := hread₀.zeroed hblank hrest
    by_cases ha : a = []
    · subst ha
      rw [List.nil_append] at hsplit
      subst hsplit
      obtain rfl := hnew.key_eq (hkeys key₀ hkey₀) (hkeys key hkey) hread.quoted_prefix
      obtain ⟨rfl, rfl, rfl, -⟩ := hread.unique hnew
      exact ⟨rfl, g₀, h₀, rfl, rfl⟩
    · obtain ⟨a', -, hrest'⟩ := behind_counter hkeys (hkeys key₀ hkey₀) hnew.before hnew.after
        hnew.decimal hsplit ha hkey hread.quoted_prefix
      exact ih hrest'
  | @other c t t' hnot hz ih =>
    cases a with
    | nil =>
      rw [List.nil_append] at hsplit
      subst hsplit
      obtain ⟨rest', hbefore, -⟩ := hz.had_counter hkeys (hkeys key hkey) hread
      exact absurd ⟨g, h, d, rest', hbefore⟩ (hnot key hkey)
    | cons e a => exact ih (List.cons.inj hsplit).2

/-- Every counter of the old text is one of the new text. -/
theorem Zeroed.keeps (hz : Zeroed keys blank t u) {a b : List Char} (hsplit : t = a ++ b)
    (hkey : key ∈ keys) (hread : ReadsCounter key g h d rest b) :
    ∃ a' b' rest', u = a' ++ b' ∧ ReadsCounter key (blank g) (blank h) ['0'] rest' b' := by
  induction hz generalizing a with
  | nil =>
    exact absurd (List.append_eq_nil_iff.mp hsplit.symm).2 hread.ne_nil
  | @counter key₀ g₀ h₀ d₀ rest₀ rest' text hkey₀ hread₀ hrest ih =>
    have hnew := hread₀.zeroed hblank hrest
    by_cases ha : a = []
    · subst ha
      rw [List.nil_append] at hsplit
      subst hsplit
      obtain rfl := hread₀.key_eq (hkeys key₀ hkey₀) (hkeys key hkey) hread.quoted_prefix
      obtain ⟨rfl, rfl, rfl, -⟩ := hread.unique hread₀
      exact ⟨[], _, rest', rfl, hnew⟩
    · obtain ⟨a', -, hrest₀⟩ := behind_counter hkeys (hkeys key₀ hkey₀) hread₀.before hread₀.after
        hread₀.decimal (hread₀.text_eq.symm.trans hsplit) ha hkey hread.quoted_prefix
      obtain ⟨a₁, b₁, rest₁, rfl, hb₁⟩ := ih hrest₀
      exact ⟨_, b₁, rest₁, (List.append_assoc ..).symm, hb₁⟩
  | @other c t t' hnot hz ih =>
    cases a with
    | nil =>
      rw [List.nil_append] at hsplit
      subst hsplit
      exact absurd ⟨g, h, d, rest, hread⟩ (hnot key hkey)
    | cons e a =>
      obtain ⟨a₁, b₁, rest₁, rfl, hb₁⟩ := ih (List.cons.inj hsplit).2
      exact ⟨c :: a₁, b₁, rest₁, rfl, hb₁⟩

end Occurrences

/-- Two keys, one after the other. -/
theorem Zeroed.trans {k₁ k₂ : List Char} {blank : List Char → List Char} {t u v : List Char}
    (hk₁ : CounterKey k₁) (hk₂ : CounterKey k₂) (hne : k₁ ≠ k₂) (hblank : ∀ g, Gap g → Gap (blank g))
    (h₁ : Zeroed [k₁] blank t u) (h₂ : Zeroed [k₂] blank u v) : Zeroed [k₁, k₂] blank t v := by
  have hkeys₁ : ∀ key ∈ [k₁], CounterKey key := fun key hkey => List.mem_singleton.mp hkey ▸ hk₁
  have hkeys₂ : ∀ key ∈ [k₂], CounterKey key := fun key hkey => List.mem_singleton.mp hkey ▸ hk₂
  induction hlength : t.length using Nat.strong_induction_on generalizing t u v with
  | _ n ih =>
    cases h₁ with
    | nil =>
      cases h₂ with
      | nil => exact .nil
      | counter hkey hread hrest => exact absurd rfl hread.ne_nil
    | @counter key g h d rest rest' _ hkey hread hrest =>
      obtain rfl := List.mem_singleton.mp hkey
      have hnew := hread.zeroed hblank hrest
      have hfree : FreeOf [k₂] (counterText key (blank g) (blank h) ['0']) rest' := by
        intro a b hsplit hb k hk hquoted
        obtain rfl := List.mem_singleton.mp hk
        by_cases ha : a = []
        · subst ha
          rw [List.nil_append] at hsplit
          rw [← hsplit] at hquoted
          exact hne (hnew.key_eq hk₁ hk₂ hquoted).symm
        · exact not_quoted_inside hk₂ hk₁ hnew.before hnew.after hnew.decimal hsplit ha hb rest' hquoted
      obtain ⟨r, rfl, hr⟩ := h₂.passes hfree
      refine .counter (by simp) hread (ih rest.length ?_ hrest hr rfl)
      rw [← hlength, hread.text_eq, counterText_cons]
      simp only [List.length_append, List.length_cons]
      omega
    | @other c t t' hnot h₁ =>
      cases h₂ with
      | @counter key g h d rest rest' _ hkey hread hrest =>
        obtain rfl := List.mem_singleton.mp hkey
        obtain ⟨rest₀, hread₀, hrest₀⟩ := h₁.had_counter hkeys₁ hk₂ hread
        refine .counter (by simp) hread₀ (ih rest₀.length ?_ hrest₀ hrest rfl)
        rw [← hlength, hread₀.text_eq, counterText_cons]
        simp only [List.length_append, List.length_cons]
        omega
      | @other _ _ v' hnot₂ h₂ =>
        refine .other (fun key hkey => ?_) (ih t.length ?_ h₁ h₂ rfl)
        · rcases List.mem_cons.mp hkey with rfl | hkey
          · exact hnot _ (List.mem_singleton_self _)
          · rintro ⟨g, h, d, rest, hread⟩
            obtain rfl := List.mem_singleton.mp hkey
            obtain ⟨rest', hread', -⟩ := h₁.keeps_counter hkeys₁ hk₂ hread
            exact hnot₂ _ (List.mem_singleton_self _) ⟨g, h, d, rest', hread'⟩
        · rw [← hlength]
          exact Nat.lt_succ_self _

/-- Without white space around the colons nothing else is lost. -/
theorem Zeroed.of_tight {keys : List (List Char)} {t u : List Char} (htight : Tight keys t)
    (hz : Zeroed keys (fun _ => []) t u) : Zeroed keys id t u := by
  induction hz with
  | nil => exact .nil
  | @counter key g h d rest rest' text hkey hread hrest ih =>
    obtain ⟨rfl, rfl⟩ := htight [] text rfl key hkey g h d rest hread
    refine .counter hkey hread (ih fun a b hsplit => htight (counterText key [] [] d ++ a) b ?_)
    rw [hread.text_eq, hsplit, List.append_assoc]
  | @other c t t' hnot hz ih =>
    refine .other hnot (ih fun a b hsplit => htight (c :: a) b ?_)
    rw [hsplit]
    rfl

section Replacing
variable {key : List Char}

/-- Replacing every match writes the counters without white space. -/
theorem zeroed_replaceFrom (text before : List Char) : Zeroed [key] (fun _ => []) text
    ((counterExpression key).replaceFrom (counterText key [] [] ['0']) before 0 text) := by
  induction hlength : text.length using Nat.strong_induction_on generalizing text before with
  | _ n ih =>
    cases text with
    | nil => exact .nil
    | cons c t =>
      by_cases hbegins : BeginsCounter key (c :: t)
      · obtain ⟨g, h, d, rest, hread⟩ := hbegins
        obtain ⟨x, hx, hrest, -⟩ := matchAt_counter_some hread before
        have htext : c :: t = '"' :: ((key ++ '"' :: (g ++ ':' :: (h ++ d))) ++ rest) := by
          rw [hread.text_eq, counterText_cons]
          rfl
        rw [htext] at hx hlength hread ⊢
        rw [replaceFrom_some hx hrest]
        refine .counter (List.mem_singleton_self key) hread (ih rest.length ?_ _ _ rfl)
        rw [← hlength]
        simp only [List.length_cons, List.length_append]
        omega
      · rw [replaceFrom_none (matchAt_counter_none hbegins)]
        refine .other (fun k hk => ?_) (ih t.length ?_ _ _ rfl)
        · rw [List.mem_singleton.mp hk]
          exact hbegins
        · rw [← hlength]
          exact Nat.lt_succ_self _

theorem zeroed_regexReplace (text : List Char) : Zeroed [key] (fun _ => []) text
    (regexReplace (counterExpression key) (counterText key [] [] ['0']) text) :=
  zeroed_replaceFrom text []

end Replacing

end Disping.Text
