import Mathlib.Algebra.Group.Nat.Defs
import Mathlib.Data.List.TakeWhile
import Disping.Text.Pattern

/-! # Integers read from the beginning of a text

`std::stoi` as it is where long has 32 bits: white space and a sign may stand before the digits,
anything may stand behind them.
-/
namespace Disping.Text

/-- The exceptions of the conversion. -/
inductive ConversionError
  | invalidArgument
  | outOfRange
deriving DecidableEq, Repr

/-- The number that a text begins with, none without a digit. -/
def leadingNumber (text : List Char) : Option ℕ :=
  let digits := text.takeWhile Char.isDigit
  if digits = [] then none else some (Nat.ofDigitChars 10 digits 0)

/-- The integer before its range is looked at, none without a digit. -/
def strtol (text : List Char) : Option ℤ :=
  match text.dropWhile isSpace with
  | '-' :: cs => (leadingNumber cs).map fun n => -(n : ℤ)
  | '+' :: cs => (leadingNumber cs).map fun n => (n : ℤ)
  | cs => (leadingNumber cs).map fun n => (n : ℤ)

def stoi (text : List Char) : Except ConversionError ℤ :=
  match strtol text with
  | none => .error .invalidArgument
  | some v => if -2147483648 ≤ v ∧ v ≤ 2147483647 then .ok v else .error .outOfRange

/-- A number in decimal digits. -/
structure Decimal (text : List Char) : Prop where
  nonempty : text ≠ []
  digits : ∀ c ∈ text, c.isDigit = true

instance : DecidablePred Decimal := fun text =>
  decidable_of_iff (text ≠ [] ∧ text.all Char.isDigit = true)
    ⟨fun h => ⟨h.1, List.all_eq_true.mp h.2⟩, fun h => ⟨h.nonempty, List.all_eq_true.mpr h.digits⟩⟩

variable {text : List Char}

theorem Decimal.leadingNumber (h : Decimal text) :
    leadingNumber text = some (Nat.ofDigitChars 10 text 0) := by
  have hall : text.takeWhile Char.isDigit = text := List.takeWhile_eq_self_iff.mpr h.digits
  rw [Text.leadingNumber, hall, if_neg h.nonempty]

theorem isSpace_of_isDigit {c : Char} (h : c.isDigit = true) : isSpace c = false := by
  rw [isSpace, decide_eq_false_iff_not]
  intro hc
  simp only [List.mem_cons, List.not_mem_nil, or_false] at hc
  rcases hc with rfl | rfl | rfl | rfl | rfl | rfl <;> exact absurd h (by decide)

theorem Decimal.strtol (h : Decimal text) : strtol text = some (Nat.ofDigitChars 10 text 0 : ℤ) := by
  obtain ⟨c, cs, rfl⟩ := List.exists_cons_of_ne_nil h.nonempty
  have hc : c.isDigit = true := h.digits c (List.mem_cons_self ..)
  have hdrop : (c :: cs).dropWhile isSpace = c :: cs :=
    List.dropWhile_cons_of_neg (by rw [isSpace_of_isDigit hc]; exact Bool.false_ne_true)
  have hminus : c ≠ '-' := fun heq => absurd (heq ▸ hc) (by decide)
  have hplus : c ≠ '+' := fun heq => absurd (heq ▸ hc) (by decide)
  rw [Text.strtol, hdrop]
  split
  · rename_i heq
    exact absurd (List.cons.inj heq).1 hminus
  · rename_i heq
    exact absurd (List.cons.inj heq).1 hplus
  · rw [h.leadingNumber]
    rfl

theorem ofDigitChars_lt (h : ∀ c ∈ text, c.isDigit = true) :
    Nat.ofDigitChars 10 text 0 < 10 ^ text.length := by
  induction text with
  | nil => simp
  | cons c cs ih =>
    have hrest := ih fun d hd => h d (List.mem_cons_of_mem c hd)
    have hdigit : c.toNat - '0'.toNat ≤ 9 := by
      have hc := (Bool.and_eq_true_iff.mp (h c List.mem_cons_self)).2
      have hle : c.toNat ≤ '9'.toNat := of_decide_eq_true hc
      have hnine : '9'.toNat - '0'.toNat = 9 := rfl
      omega
    have hpow : 10 ^ cs.length * (c.toNat - '0'.toNat) ≤ 10 ^ cs.length * 9 := Nat.mul_le_mul_left _ hdigit
    rw [Nat.ofDigitChars_cons, Nat.ofDigitChars_eq_ofDigitChars_zero, List.length_cons, Nat.pow_succ,
      Nat.mul_zero, Nat.zero_add]
    omega

/-- A number in digits is converted when an int holds it. -/
theorem Decimal.stoi (h : Decimal text) : stoi text =
    if Nat.ofDigitChars 10 text 0 ≤ 2147483647 then .ok (Nat.ofDigitChars 10 text 0 : ℤ)
    else .error .outOfRange := by
  rw [Text.stoi, h.strtol]
  by_cases hvalue : Nat.ofDigitChars 10 text 0 ≤ 2147483647
  · rw [if_pos hvalue]
    exact if_pos ⟨by omega, by omega⟩
  · rw [if_neg hvalue]
    exact if_neg fun hrange => hvalue (by omega)

end Disping.Text
