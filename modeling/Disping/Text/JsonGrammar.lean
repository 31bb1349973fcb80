import Mathlib.Data.Rat.Defs
import Mathlib.Data.List.Basic

/-! # The JSON grammar

Which texts are JSON documents, and what they denote. A string denotes UTF-16 code units, so that
an escaped surrogate denotes something on its own. Of the grammar only one consequence is drawn: in
a document a backslash stands inside a string and before a letter that can be escaped.
-/
namespace Disping.Text

abbrev Units := List ℕ

inductive Json
  | null
  | bool (b : Bool)
  | number (q : ℚ)
  | string (u : Units)
  | array (vs : List Json)
  | object (ms : List (Units × Json))

/-- The UTF-16 code units of a character. -/
def unitsOfChar (c : Char) : Units :=
  if c.toNat < 0x10000 then [c.toNat]
  else [0xD800 + (c.toNat - 0x10000) / 0x400, 0xDC00 + (c.toNat - 0x10000) % 0x400]

def unitsOf (s : List Char) : Units := s.flatMap unitsOfChar

namespace Json

/-- The letters after a backslash that denote one code unit, with that unit. -/
def shortEscape : Char → Option ℕ
  | '"' => some 0x22
  | '\\' => some 0x5C
  | '/' => some 0x2F
  | 'b' => some 0x08
  | 'f' => some 0x0C
  | 'n' => some 0x0A
  | 'r' => some 0x0D
  | 't' => some 0x09
  | _ => none

def hexDigit (c : Char) : Option ℕ :=
  if c.isDigit then some (c.toNat - '0'.toNat)
  else if 'a' ≤ c ∧ c ≤ 'f' then some (c.toNat - 'a'.toNat + 10)
  else if 'A' ≤ c ∧ c ≤ 'F' then some (c.toNat - 'A'.toNat + 10)
  else none

/-- The inside of a string and the code units it denotes. -/
inductive Chars : List Char → Units → Prop
  | nil : Chars [] []
  | plain {c : Char} {s : List Char} {u : Units} (hcontrol : 0x20 ≤ c.toNat) (hquote : c ≠ '"')
      (hslash : c ≠ '\\') (hs : Chars s u) : Chars (c :: s) (unitsOfChar c ++ u)
  | short {c : Char} {n : ℕ} {s : List Char} {u : Units} (hc : shortEscape c = some n)
      (hs : Chars s u) : Chars ('\\' :: c :: s) (n :: u)
  | unicode {a b c d : Char} {i j k l : ℕ} {s : List Char} {u : Units} (ha : hexDigit a = some i)
      (hb : hexDigit b = some j) (hc : hexDigit c = some k) (hd : hexDigit d = some l)
      (hs : Chars s u) :
      Chars ('\\' :: 'u' :: a :: b :: c :: d :: s) ((((16 * i + j) * 16 + k) * 16 + l) :: u)

def Spaces (s : List Char) : Prop := ∀ c ∈ s, c ∈ [' ', '\t', '\n', '\r']

/-- A run of digits, at least one. -/
structure Digits (s : List Char) : Prop where
  nonempty : s ≠ []
  digits : ∀ c ∈ s, c.isDigit = true

def digitsValue (s : List Char) : ℕ := s.foldl (fun n c => 10 * n + (c.toNat - '0'.toNat)) 0

/-- An integer part, which begins with a zero only when it is zero. -/
structure IntPart (s : List Char) : Prop extends Digits s where
  leading : s.head? = some '0' → s = ['0']

inductive Fraction : List Char → ℚ → Prop
  | none : Fraction [] 0
  | some {s : List Char} (hs : Digits s) :
      Fraction ('.' :: s) (digitsValue s / (10 : ℚ) ^ s.length)

inductive Exponent : List Char → ℚ → Prop
  | none : Exponent [] 1
  | plain {e : Char} {s : List Char} (he : e ∈ ['e', 'E']) (hs : Digits s) :
      Exponent (e :: s) (10 ^ digitsValue s)
  | plus {e : Char} {s : List Char} (he : e ∈ ['e', 'E']) (hs : Digits s) :
      Exponent (e :: '+' :: s) (10 ^ digitsValue s)
  | minus {e : Char} {s : List Char} (he : e ∈ ['e', 'E']) (hs : Digits s) :
      Exponent (e :: '-' :: s) (1 / 10 ^ digitsValue s)

inductive Number : List Char → ℚ → Prop
  | plain {i f e : List Char} {q p : ℚ} (hi : IntPart i) (hf : Fraction f q) (he : Exponent e p) :
      Number (i ++ f ++ e) ((digitsValue i + q) * p)
  | minus {i f e : List Char} {q p : ℚ} (hi : IntPart i) (hf : Fraction f q) (he : Exponent e p) :
      Number ('-' :: i ++ f ++ e) (-((digitsValue i + q) * p))

/-- The nonterminals of the grammar that depend on each other. -/
inductive Phrase
  | value (v : Json)
  | element (v : Json)
  | elements (vs : List Json)
  | member (m : Units × Json)
  | members (ms : List (Units × Json))

inductive Reads : Phrase → List Char → Prop
  | null : Reads (.value .null) ['n', 'u', 'l', 'l']
  | true : Reads (.value (.bool true)) ['t', 'r', 'u', 'e']
  | false : Reads (.value (.bool false)) ['f', 'a', 'l', 's', 'e']
  | number {s : List Char} {q : ℚ} (hs : Number s q) : Reads (.value (.number q)) s
  | string {s : List Char} {u : Units} (hs : Chars s u) :
      Reads (.value (.string u)) ('"' :: s ++ ['"'])
  | emptyArray {ws : List Char} (hws : Spaces ws) : Reads (.value (.array [])) ('[' :: ws ++ [']'])
  | array {s : List Char} {vs : List Json} (hs : Reads (.elements vs) s) :
      Reads (.value (.array vs)) ('[' :: s ++ [']'])
  | emptyObject {ws : List Char} (hws : Spaces ws) :
      Reads (.value (.object [])) ('\x7b' :: ws ++ ['\x7d'])
  | object {s : List Char} {ms : List (Units × Json)} (hs : Reads (.members ms) s) :
      Reads (.value (.object ms)) ('\x7b' :: s ++ ['\x7d'])
  | padded {ws s ws' : List Char} {v : Json} (hws : Spaces ws) (hs : Reads (.value v) s)
      (hws' : Spaces ws') : Reads (.element v) (ws ++ s ++ ws')
  | element {s : List Char} {v : Json} (hs : Reads (.element v) s) : Reads (.elements [v]) s
  | elements {s t : List Char} {v : Json} {vs : List Json} (hs : Reads (.element v) s)
      (ht : Reads (.elements vs) t) : Reads (.elements (v :: vs)) (s ++ ',' :: t)
  | named {ws s ws' t : List Char} {u : Units} {v : Json} (hws : Spaces ws) (hs : Chars s u)
      (hws' : Spaces ws') (ht : Reads (.element v) t) :
      Reads (.member (u, v)) (ws ++ '"' :: s ++ '"' :: ws' ++ ':' :: t)
  | member {s : List Char} {m : Units × Json} (hs : Reads (.member m) s) : Reads (.members [m]) s
  | members {s t : List Char} {m : Units × Json} {ms : List (Units × Json)}
      (hs : Reads (.member m) s) (ht : Reads (.members ms) t) :
      Reads (.members (m :: ms)) (s ++ ',' :: t)

/-- The text is a JSON document for this value. -/
def Document (s : List Char) (v : Json) : Prop := Reads (.element v) s

example : Document ['\x7b', '"', '\\', '\\', '"', ':', ' ', '1', '0', '\x7d']
    (.object [([0x5C], .number 10)]) := by
  have hkey : Chars ['\\', '\\'] [0x5C] := .short rfl .nil
  have hdigits : Digits ['1', '0'] := ⟨List.cons_ne_nil _ _, List.all_eq_true.mp rfl⟩
  have hnumber : Number ['1', '0'] ((digitsValue ['1', '0'] + 0) * 1) :=
    .plain ⟨hdigits, by decide⟩ .none .none
  have hvalue : digitsValue ['1', '0'] = 10 := rfl
  rw [hvalue, add_zero, mul_one] at hnumber
  have hspaces : Spaces [] ∧ Spaces [' '] :=
    ⟨List.forall_mem_nil _, List.forall_mem_singleton.mpr List.mem_cons_self⟩
  have hmember := Reads.named hspaces.1 hkey hspaces.1 (.padded hspaces.2 (.number hnumber) hspaces.1)
  exact .padded hspaces.1 (.object (.member hmember)) hspaces.1

/-! Quotation marks and backslashes. -/

/-- Where a position of a text stands with respect to its strings. -/
inductive Place
  | outside
  | inside
  | escaped
deriving DecidableEq

def Place.next : Place → Char → Option Place
  | .outside, c => if c = '"' then some .inside else if c = '\\' then none else some .outside
  | .inside, c => if c = '"' then some .outside else if c = '\\' then some .escaped else some .inside
  | .escaped, c => if (shortEscape c).isSome ∨ c = 'u' then some .inside else none

/-- The place after a text, none when one of its backslashes is out of place. -/
def scan (p : Place) (s : List Char) : Option Place := s.foldlM Place.next p

theorem scan_cons (p : Place) (c : Char) (s : List Char) :
    scan p (c :: s) = (p.next c).bind fun q => scan q s := rfl

theorem scan_append (p : Place) (s t : List Char) :
    scan p (s ++ t) = (scan p s).bind fun q => scan q t := by
  induction s generalizing p with
  | nil => rfl
  | cons c s ih =>
    rw [List.cons_append, scan_cons, scan_cons]
    cases p.next c with
    | none => rfl
    | some q => exact ih q

/-- A text without quotation marks and backslashes. -/
def Bare (s : List Char) : Prop := ∀ c ∈ s, c ≠ '"' ∧ c ≠ '\\'

instance (s : List Char) : Decidable (Bare s) :=
  List.decidableBAll (fun c => c ≠ '"' ∧ c ≠ '\\') s

theorem Bare.cons {c : Char} {s : List Char} (hquote : c ≠ '"') (hslash : c ≠ '\\')
    (hs : Bare s) : Bare (c :: s) :=
  List.forall_mem_cons.mpr ⟨⟨hquote, hslash⟩, hs⟩

theorem Bare.append {s t : List Char} (hs : Bare s) (ht : Bare t) : Bare (s ++ t) :=
  List.forall_mem_append.mpr ⟨hs, ht⟩

/-- A bare text leaves its place unless that is after a backslash. -/
theorem Bare.scan {s : List Char} (hs : Bare s) {p : Place} (hp : p ≠ .escaped) :
    scan p s = some p := by
  induction s with
  | nil => rfl
  | cons c s ih =>
    obtain ⟨⟨hquote, hslash⟩, hrest⟩ := List.forall_mem_cons.mp hs
    have hnext : p.next c = some p := by
      cases p with
      | outside => simp only [Place.next, hquote, hslash, if_false]
      | inside => simp only [Place.next, hquote, hslash, if_false]
      | escaped => exact absurd rfl hp
    rw [scan_cons, hnext]
    exact ih hrest

theorem Spaces.bare {s : List Char} (hs : Spaces s) : Bare s := by
  intro c hc
  have hmem := hs c hc
  simp only [List.mem_cons, List.not_mem_nil, or_false] at hmem
  rcases hmem with rfl | rfl | rfl | rfl <;> decide

theorem bare_of_isDigit {c : Char} (hc : c.isDigit = true) : c ≠ '"' ∧ c ≠ '\\' := by
  constructor
  · rintro rfl
    exact absurd hc (by decide)
  · rintro rfl
    exact absurd hc (by decide)

theorem Digits.bare {s : List Char} (hs : Digits s) : Bare s :=
  fun c hc => bare_of_isDigit (hs.digits c hc)

theorem Fraction.bare {s : List Char} {q : ℚ} (hs : Fraction s q) : Bare s := by
  cases hs with
  | none => exact List.forall_mem_nil _
  | some hs => exact hs.bare.cons (by decide) (by decide)

theorem Exponent.bare {s : List Char} {q : ℚ} (hs : Exponent s q) : Bare s := by
  have hletter : ∀ {e : Char}, e ∈ ['e', 'E'] → e ≠ '"' ∧ e ≠ '\\' := by
    intro e he
    simp only [List.mem_cons, List.not_mem_nil, or_false] at he
    rcases he with rfl | rfl <;> decide
  cases hs with
  | none => exact List.forall_mem_nil _
  | plain he hs => exact hs.bare.cons (hletter he).1 (hletter he).2
  | plus he hs => exact (hs.bare.cons (by decide) (by decide)).cons (hletter he).1 (hletter he).2
  | minus he hs => exact (hs.bare.cons (by decide) (by decide)).cons (hletter he).1 (hletter he).2

theorem Number.bare {s : List Char} {q : ℚ} (hs : Number s q) : Bare s := by
  cases hs with
  | plain hi hf he => exact (hi.toDigits.bare.append hf.bare).append he.bare
  | minus hi hf he =>
    exact ((hi.toDigits.bare.cons (by decide) (by decide)).append hf.bare).append he.bare

theorem hexDigit_bare {c : Char} {n : ℕ} (hc : hexDigit c = some n) : c ≠ '"' ∧ c ≠ '\\' := by
  have hquote : hexDigit '"' = none := by decide
  have hslash : hexDigit '\\' = none := by decide
  constructor
  · rintro rfl
    exact Option.some_ne_none n (hc.symm.trans hquote)
  · rintro rfl
    exact Option.some_ne_none n (hc.symm.trans hslash)

/-- The inside of a string ends where it began. -/
theorem Chars.scan {s : List Char} {u : Units} (hs : Chars s u) :
    scan .inside s = some .inside := by
  induction hs with
  | nil => rfl
  | plain _ hquote hslash _ ih =>
    rw [scan_cons, Place.next, if_neg hquote, if_neg hslash]
    exact ih
  | @short c n s u hc _ ih =>
    have hescape : (shortEscape c).isSome ∨ c = 'u' := Or.inl (Option.isSome_of_mem hc)
    have hnext : Place.next .escaped c = some .inside := if_pos hescape
    have hslash : Place.next .inside '\\' = some .escaped := rfl
    rw [scan_cons, hslash, Option.bind_some, scan_cons, hnext]
    exact ih
  | @unicode a b c d _ _ _ _ s _ ha hb hc hd _ ih =>
    have hbare : Bare [a, b, c, d] := by
      intro x hx
      simp only [List.mem_cons, List.not_mem_nil, or_false] at hx
      rcases hx with rfl | rfl | rfl | rfl
      · exact hexDigit_bare ha
      · exact hexDigit_bare hb
      · exact hexDigit_bare hc
      · exact hexDigit_bare hd
    have hprefix : Json.scan .inside ['\\', 'u'] = some .inside := by decide
    have hsplit : '\\' :: 'u' :: a :: b :: c :: d :: s = ['\\', 'u'] ++ ([a, b, c, d] ++ s) := rfl
    rw [hsplit, scan_append, hprefix, Option.bind_some, scan_append, hbare.scan (by decide),
      Option.bind_some]
    exact ih

/-- The text ends outside its strings, as it began. -/
def Balanced (s : List Char) : Prop := scan .outside s = some .outside

instance (s : List Char) : Decidable (Balanced s) :=
  inferInstanceAs (Decidable (scan .outside s = some .outside))

theorem Bare.balanced {s : List Char} (hs : Bare s) : Balanced s := hs.scan (by decide)

theorem Balanced.append {s t : List Char} (hs : Balanced s) (ht : Balanced t) :
    Balanced (s ++ t) := by
  rw [Balanced, scan_append, hs]
  exact ht

theorem Balanced.cons {c : Char} {s : List Char} (hs : Balanced s) (hc : Balanced [c]) :
    Balanced (c :: s) := hc.append hs

theorem Chars.balanced {s : List Char} {u : Units} (hs : Chars s u) {t : List Char}
    (ht : Balanced t) : Balanced ('"' :: s ++ '"' :: t) := by
  have hopen : Place.next .outside '"' = some .inside := rfl
  have hclose : Place.next .inside '"' = some .outside := rfl
  rw [Balanced, scan_append, scan_cons, hopen, Option.bind_some, hs.scan, Option.bind_some,
    scan_cons, hclose]
  exact ht

/-- Every phrase of the grammar is balanced. -/
theorem Reads.balanced {p : Phrase} {s : List Char} (h : Reads p s) : Balanced s := by
  induction h with
  | null => decide
  | true => decide
  | false => decide
  | number hs => exact hs.bare.balanced
  | string hs => exact hs.balanced (by decide)
  | emptyArray hws => exact (hws.bare.balanced.cons (by decide)).append (by decide)
  | array _ ih => exact (ih.cons (by decide)).append (by decide)
  | emptyObject hws => exact (hws.bare.balanced.cons (by decide)).append (by decide)
  | object _ ih => exact (ih.cons (by decide)).append (by decide)
  | padded hws _ hws' ih => exact (hws.bare.balanced.append ih).append hws'.bare.balanced
  | element _ ih => exact ih
  | elements _ _ ih ih' => exact ih.append (ih'.cons (by decide))
  | named hws hs hws' _ ih =>
    have hcolon : Balanced [':'] := by decide
    have hname := hs.balanced (hws'.bare.balanced.append (ih.cons hcolon))
    simpa only [List.append_assoc, List.cons_append] using hws.bare.balanced.append hname
  | member _ ih => exact ih
  | members _ _ ih ih' => exact ih.append (ih'.cons (by decide))

/-- A text with a quotation mark, bare characters and a backslash before a letter that cannot be
escaped is no document. -/
theorem not_document {s t t' : List Char} {c : Char} (ht : Bare t)
    (hc : ¬ ((shortEscape c).isSome ∨ c = 'u')) (v : Json) :
    ¬ Document (s ++ '"' :: t ++ '\\' :: c :: t') v := by
  intro hdoc
  have hbalanced := Reads.balanced hdoc
  -- after the quotation mark the scan is inside a string or outside, and both end at the backslash
  have hstuck : ∀ p, p ≠ .escaped → scan p (t ++ '\\' :: c :: t') = none := by
    intro p hp
    rw [scan_append, ht.scan hp, Option.bind_some]
    cases p with
    | outside => rfl
    | inside =>
      have hslash : Place.next .inside '\\' = some .escaped := rfl
      have hnext : Place.next .escaped c = none := if_neg hc
      rw [scan_cons, hslash, Option.bind_some, scan_cons, hnext, Option.bind_none]
    | escaped => exact absurd rfl hp
  rw [List.append_assoc, Balanced, scan_append] at hbalanced
  obtain ⟨p, -, hrest⟩ := Option.bind_eq_some_iff.mp hbalanced
  rw [List.cons_append, scan_cons] at hrest
  cases p with
  | outside => exact Option.some_ne_none _ (hrest.symm.trans (hstuck .inside (by decide)))
  | inside => exact Option.some_ne_none _ (hrest.symm.trans (hstuck .outside (by decide)))
  | escaped => exact Option.some_ne_none _ (hrest.symm.trans (hstuck .inside (by decide)))

end Json
end Disping.Text
