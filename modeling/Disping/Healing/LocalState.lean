import Disping.Healing.FileWriting
import Disping.Text.CounterEdits

/-! # The crash counters of the browser state

CleanCorruptedHtmlCache looks at the first number of each of two counters, and sets all of them to zero
when one of the two numbers is above 2. A number that no int holds ends it before anything is written.
-/
namespace Disping.Healing

open Text

def streakKey : List Char := "variations_crash_streak".toList

def crashKey : List Char := "system_crash_count".toList

def counterKeys : List (List Char) := [streakKey, crashKey]

theorem streakKey_mem : streakKey ∈ counterKeys := List.mem_cons_self ..

theorem crashKey_mem : crashKey ∈ counterKeys := List.mem_cons_of_mem _ (List.mem_singleton_self _)

theorem eq_of_mem_counterKeys {key : List Char} (h : key ∈ counterKeys) :
    key = streakKey ∨ key = crashKey := by
  simpa [counterKeys] using h

theorem counterKey_of_mem : ∀ key ∈ counterKeys, CounterKey key := by
  intro key hkey
  rcases eq_of_mem_counterKeys hkey with rfl | rfl
  · exact ⟨List.all_eq_true.mp rfl, List.cons_ne_nil _ _⟩
  · exact ⟨List.all_eq_true.mp rfl, List.cons_ne_nil _ _⟩

theorem regex_streakPattern : regex streakPattern false = some (counterExpression streakKey) := by
  have hpattern : streakPattern = quoted streakKey ++ "\\s*:\\s*([0-9]+)".toList := rfl
  rw [hpattern]
  exact regex_counter fun c hc => .inl ((counterKey_of_mem _ streakKey_mem).word c hc)

theorem regex_crashPattern : regex crashPattern false = some (counterExpression crashKey) := by
  have hpattern : crashPattern = quoted crashKey ++ "\\s*:\\s*([0-9]+)".toList := rfl
  rw [hpattern]
  exact regex_counter fun c hc => .inl ((counterKey_of_mem _ crashKey_mem).word c hc)

/-- The first number of the key is above 2. -/
def Due (key content : List Char) : Prop := ∃ d, FirstCounter key content d ∧ 2 < number d

/-- An int holds the first number of the key, if there is one. -/
def InRange (key content : List Char) : Prop :=
  ∀ d, FirstCounter key content d → number d ≤ 2147483647

/-- Nine digits fit an int. -/
theorem inRange_of_few_digits (key : List Char) {content : List Char}
    (h : content.countP Char.isDigit ≤ 9) : InRange key content := by
  rintro d ⟨a, b, g, g', rest, rfl, hread, -⟩
  have hcount : d.length ≤ 9 := by
    have hall : d.countP Char.isDigit = d.length := List.countP_eq_length.mpr hread.decimal.digits
    rw [hread.text_eq, counterText] at h
    simp only [List.countP_append, List.countP_cons] at h
    omega
  have hbound := ofDigitChars_lt hread.decimal.digits
  have hpow : 10 ^ d.length ≤ 10 ^ 9 := Nat.pow_le_pow_right (by decide) hcount
  exact Nat.le_trans (Nat.le_of_lt (hbound.trans_le hpow)) (by decide)

section Inspection
variable {key content d : List Char}

theorem countAbove_first (h : FirstCounter key content d) :
    countAbove (counterExpression key) content = (stoi d).toOption.map fun val => decide (val > 2) := by
  obtain ⟨n, x, hx, hd⟩ := h.search
  rw [countAbove, hx]
  simp only [hd, Option.getD_some]

theorem countAbove_inRange (h : InRange key content) :
    ∃ above, countAbove (counterExpression key) content = some above ∧
      (above = true ↔ Due key content) := by
  by_cases hfirst : ∃ d, FirstCounter key content d
  · obtain ⟨d, hd⟩ := hfirst
    have hstoi : stoi d = .ok (number d : ℤ) := hd.decimal.stoi.trans (if_pos (h d hd))
    refine ⟨decide ((number d : ℤ) > 2), ?_, ?_⟩
    · rw [countAbove_first hd, hstoi]
      rfl
    · rw [decide_eq_true_iff]
      refine ⟨fun habove => ⟨d, hd, Int.ofNat_lt.mp habove⟩, ?_⟩
      rintro ⟨d', hd', habove⟩
      rw [hd.unique hd']
      exact Int.ofNat_lt.mpr habove
  · refine ⟨false, ?_, iff_of_false Bool.false_ne_true fun ⟨d, hd, _⟩ => hfirst ⟨d, hd⟩⟩
    rw [countAbove]
    cases hsearch : regexSearch (counterExpression key) content with
    | none => rfl
    | some found =>
      obtain ⟨d, hd, -⟩ := regexSearch_counter_some hsearch
      exact absurd ⟨d, hd⟩ hfirst

theorem countAbove_outside (h : ¬ InRange key content) :
    countAbove (counterExpression key) content = none := by
  rw [InRange, not_forall] at h
  obtain ⟨d, hd⟩ := h
  rw [Classical.not_imp] at hd
  have hstoi : stoi d = .error .outOfRange := hd.1.decimal.stoi.trans (if_neg hd.2)
  rw [countAbove_first hd.1, hstoi]
  rfl

/-- The content with both counters replaced. -/
def withZeros (content : List Char) : List Char :=
  regexReplace (counterExpression crashKey) (counterText crashKey [] [] ['0'])
    (regexReplace (counterExpression streakKey) (counterText streakKey [] [] ['0']) content)

theorem inspect_eq (content : List Char) : inspect content =
    match countAbove (counterExpression streakKey) content,
      countAbove (counterExpression crashKey) content with
    | some streak, some crashed => if streak || crashed then .dirty (withZeros content) else .clean
    | _, _ => .thrown := by
  unfold inspect
  rw [regex_streakPattern, regex_crashPattern]
  rfl

theorem inspect_thrown (hkey : key ∈ counterKeys) (h : ¬ InRange key content) :
    inspect content = .thrown := by
  have hnone := countAbove_outside h
  rw [inspect_eq]
  rcases eq_of_mem_counterKeys hkey with rfl | rfl
  · rw [hnone]
  · rw [hnone]
    cases countAbove (counterExpression streakKey) content <;> rfl

theorem inspect_inRange (h : ∀ key ∈ counterKeys, InRange key content) :
    ((∃ key ∈ counterKeys, Due key content) → inspect content = .dirty (withZeros content)) ∧
      ((∀ key ∈ counterKeys, ¬ Due key content) → inspect content = .clean) := by
  obtain ⟨streak, hstreak, hdue⟩ := countAbove_inRange (h streakKey streakKey_mem)
  obtain ⟨crashed, hcrashed, hdue'⟩ := countAbove_inRange (h crashKey crashKey_mem)
  rw [inspect_eq, hstreak, hcrashed]
  constructor
  · rintro ⟨key, hkey, hkeydue⟩
    rcases eq_of_mem_counterKeys hkey with rfl | rfl
    · rw [hdue.mpr hkeydue]
      rfl
    · rw [hdue'.mpr hkeydue]
      exact if_pos (Bool.or_true _)
  · intro hnone
    have hno : streak = false := by
      rw [← Bool.not_eq_true, hdue]
      exact hnone streakKey streakKey_mem
    have hno' : crashed = false := by
      rw [← Bool.not_eq_true, hdue']
      exact hnone crashKey crashKey_mem
    rw [hno, hno']
    rfl

theorem withZeros_zeroed (content : List Char) :
    Zeroed counterKeys (fun _ => []) content (withZeros content) :=
  Zeroed.trans (counterKey_of_mem _ streakKey_mem) (counterKey_of_mem _ crashKey_mem) (by decide)
    (fun _ _ => gap_nil) (zeroed_regexReplace content) (zeroed_regexReplace _)

end Inspection

/-- Every call succeeds, and the whole content is written. -/
structure OperationsSucceed (calls : CacheCalls) (out : WriteOutcome) (content : List Char) : Prop where
  reads : calls.Reads
  opened : out.opened = true
  whole : (cleanedContent content).length ≤ out.reached

/-- The file is left with zero for every counter and is otherwise the same, and the next call finds
nothing to clean. -/
structure Repairs (calls : CacheCalls) (out : WriteOutcome) (content : List Char) : Prop where
  zeroed : Zeroed counterKeys id content (cleanCorruptedHtmlCache calls out content).content
  clean : inspect (cleanCorruptedHtmlCache calls out content).content = .clean
  again : cleanCorruptedHtmlCache calls out (cleanCorruptedHtmlCache calls out content).content =
    ⟨some false, (cleanCorruptedHtmlCache calls out content).content⟩

section Cleaning
variable {calls : CacheCalls} {out : WriteOutcome} {content new : List Char}

theorem cleanCorruptedHtmlCache_reads (h : calls.Reads) : cleanCorruptedHtmlCache calls out content =
    match inspect content with
    | .dirty new => writeFile out content new
    | _ => ⟨some false, content⟩ := by
  obtain ⟨happData, hcache, hstate, hreadable⟩ := h
  unfold cleanCorruptedHtmlCache
  simp only [happData, hcache, hstate, hreadable, Bool.not_true, Bool.false_eq_true, if_false, if_true]
  cases inspect content <;> rfl

theorem OperationsSucceed.dirty (hops : OperationsSucceed calls out content)
    (h : inspect content = .dirty new) : cleanCorruptedHtmlCache calls out content = ⟨some true, new⟩ := by
  have hnew : cleanedContent content = new := by
    rw [cleanedContent, h]
  have hwhole := hops.whole
  rw [hnew] at hwhole
  rw [cleanCorruptedHtmlCache_reads hops.reads, h]
  simp only [writeFile, hops.opened, if_true, List.take_of_length_le hwhole]

/-- Zero counters are in range and not due. -/
theorem Zeroed.quiet {blank : List Char → List Char} (hblank : ∀ g, Gap g → Gap (blank g))
    (hz : Zeroed counterKeys blank content new) {key : List Char} (hkey : key ∈ counterKeys) :
    InRange key new ∧ ¬ Due key new := by
  have hzero : ∀ d, FirstCounter key new d → d = ['0'] := by
    rintro d ⟨a, b, g, h, rest, hsplit, hread, -⟩
    exact (hz.zero counterKey_of_mem hblank hsplit hkey hread).1
  constructor
  · intro d hd
    rw [hzero d hd]
    decide
  · rintro ⟨d, hd, habove⟩
    rw [hzero d hd] at habove
    exact absurd habove (by decide)

theorem inspect_zeroed {blank : List Char → List Char} (hblank : ∀ g, Gap g → Gap (blank g))
    (hz : Zeroed counterKeys blank content new) : inspect new = .clean :=
  (inspect_inRange fun _ hkey => (Zeroed.quiet hblank hz hkey).1).2
    fun _ hkey => (Zeroed.quiet hblank hz hkey).2

/-- What a repair keeps of the white space around the colons, the replacement takes away. -/
theorem tight_of_zeroed (hkept : Zeroed counterKeys id content new)
    (htaken : Zeroed counterKeys (fun _ => []) content new) : Tight counterKeys content := by
  intro a b hsplit key hkey g h d rest hread
  obtain ⟨a', b', rest', hsplit', hread'⟩ :=
    hkept.keeps counterKey_of_mem (fun _ hg => hg) hsplit hkey hread
  obtain ⟨-, g₀, h₀, hg, hh⟩ := htaken.zero counterKey_of_mem (fun _ _ => gap_nil) hsplit' hkey hread'
  exact ⟨hg, hh⟩

/-- With a number that no int holds, the file stays as it is. -/
theorem inRange_of_repairs (hops : OperationsSucceed calls out content)
    (hdue : ∃ key ∈ counterKeys, Due key content) (hrepairs : Repairs calls out content) :
    ∀ key ∈ counterKeys, InRange key content := by
  intro key hkey
  by_contra houtside
  have hsame : cleanCorruptedHtmlCache calls out content = ⟨some false, content⟩ := by
    rw [cleanCorruptedHtmlCache_reads hops.reads, inspect_thrown hkey houtside]
  have hz := hrepairs.zeroed
  rw [hsame] at hz
  obtain ⟨due, hmem, hdue⟩ := hdue
  exact (Zeroed.quiet (fun _ hg => hg) hz hmem).2 hdue

end Cleaning

/-- A counter above 2 is repaired exactly when an int holds the first number of either key and no
counter has white space around its colon. -/
theorem cleanCorruptedHtmlCache_repairs_iff (calls : CacheCalls) (out : WriteOutcome)
    (content : List Char) (hops : OperationsSucceed calls out content)
    (hdue : ∃ key ∈ counterKeys, Due key content) : Repairs calls out content ↔
      (∀ key ∈ counterKeys, InRange key content) ∧ Tight counterKeys content := by
  have hzeros := withZeros_zeroed content
  constructor
  · intro hrepairs
    have hrange := inRange_of_repairs hops hdue hrepairs
    have hz := hrepairs.zeroed
    rw [hops.dirty ((inspect_inRange hrange).1 hdue)] at hz
    exact ⟨hrange, tight_of_zeroed hz hzeros⟩
  · rintro ⟨hrange, htight⟩
    have hnew := hops.dirty ((inspect_inRange hrange).1 hdue)
    have hclean := inspect_zeroed (fun _ _ => gap_nil) hzeros
    refine ⟨?_, ?_, ?_⟩
    · rw [hnew]
      exact hzeros.of_tight htight
    · rw [hnew]
      exact hclean
    · rw [hnew, cleanCorruptedHtmlCache_reads hops.reads, hclean]

/-- The file is found and read. -/
def stateFound : CacheCalls := ⟨true, some true, some true, true⟩

/-- A state that holds one counter. -/
def localState (key d : List Char) : List Char := '\x7b' :: (counterText key [] [] d ++ ['\x7d'])

theorem firstCounter_localState (key : List Char) {d : List Char} (hd : Decimal d) :
    FirstCounter key (localState key d) d := by
  have hbrace : NoDigit ['\x7d'] := by
    intro c cs hc
    cases hc
    rfl
  exact FirstCounter.of_unquoted (p := ['\x7b']) (by decide) ⟨rfl, gap_nil, gap_nil, hd, hbrace⟩

theorem operationsSucceed_found (content : List Char) :
    OperationsSucceed stateFound ⟨true, (cleanedContent content).length⟩ content :=
  ⟨⟨rfl, rfl, rfl, rfl⟩, rfl, Nat.le_refl _⟩

theorem cleanCorruptedHtmlCache_repairs_three :
    Repairs stateFound ⟨true, (cleanedContent (localState streakKey ['3'])).length⟩
      (localState streakKey ['3']) := by
  have hfirst := firstCounter_localState streakKey (d := ['3']) (by decide)
  refine (cleanCorruptedHtmlCache_repairs_iff _ _ _ (operationsSucceed_found _)
    ⟨streakKey, streakKey_mem, ['3'], hfirst, by decide⟩).mpr ⟨fun key _ => ?_, ?_⟩
  · exact inRange_of_few_digits key (by decide)
  · apply tight_of_spaceless counterKeys
    intro c hc
    have hnone : (localState streakKey ['3']).all (!isSpace ·) = true := rfl
    simpa using List.all_eq_true.mp hnone c hc

/-- Eleven digits are too many for an int, and the counter stays. -/
theorem not_cleanCorruptedHtmlCache_repairs_wide :
    ¬ ∀ (calls : CacheCalls) (out : WriteOutcome) (content : List Char),
      OperationsSucceed calls out content → (∃ key ∈ counterKeys, Due key content) →
        Repairs calls out content := by
  intro h
  let wide : List Char := List.replicate 11 '9'
  have hfirst := firstCounter_localState crashKey (d := wide) (by decide)
  have hdue : ∃ key ∈ counterKeys, Due key (localState crashKey wide) :=
    ⟨crashKey, crashKey_mem, wide, hfirst, by decide⟩
  have hops := operationsSucceed_found (localState crashKey wide)
  have hrange := inRange_of_repairs hops hdue (h _ _ _ hops hdue) crashKey crashKey_mem wide hfirst
  exact absurd hrange (by decide)

end Disping.Healing
