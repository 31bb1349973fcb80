import Mathlib.Data.List.Basic
import Mathlib.Logic.Function.Basic

/-! # Matching of regular expressions

The matchers of ECMAScript, which try the alternatives in their order and hand what they reach to a
continuation. A set of characters is a predicate, so comparison without regard to letter case is
settled where an expression is built.
-/
namespace Disping.Text

inductive Expression
  | empty
  | char (p : Char → Bool)
  | seq (a b : Expression)
  | alt (a b : Expression)
  | group (n : ℕ) (a : Expression)
  /-- At least and at most so many turns, which forget what their groups held. -/
  | turns (min : ℕ) (max : Option ℕ) (greedy : Bool) (groups : List ℕ) (a : Expression)
  | backref (same : Char → Char → Bool) (n : ℕ)
  | start
  | stop
  | boundary (negated : Bool)
  | look (negated : Bool) (a : Expression)

/-- A place in a text, with what the groups hold. -/
structure Cursor where
  /-- The text to the left, its last character first. -/
  before : List Char
  rest : List Char
  groups : ℕ → Option (List Char)

namespace Cursor
variable (s t : Cursor)

/-- The text between two places. -/
def taken : List Char := (t.before.take (t.before.length - s.before.length)).reverse

def hold (n : ℕ) (w : List Char) : Cursor :=
  { s with groups := Function.update s.groups n (some w) }

def forget (ns : List ℕ) : Cursor :=
  { s with groups := fun n => if n ∈ ns then none else s.groups n }

end Cursor

abbrev Continuation := Cursor → Option Cursor

def wordChar (c : Char) : Bool := c.isAlphanum || c == '_'

/-- The turns of a repetition. Every turn beyond the least number takes a character. -/
def repeated (m : Continuation → Continuation) (greedy : Bool) (groups : List ℕ)
    (k : Continuation) : ℕ → ℕ → Option ℕ → Continuation
  | 0, _, _, _ => none
  | fuel + 1, min, max, s =>
    if max = some 0 then k s
    else
      let again := m (fun t => if min = 0 ∧ t.rest.length = s.rest.length then none
        else repeated m greedy groups k fuel (min - 1) (max.map (· - 1)) t) (s.forget groups)
      if 0 < min then again
      else if greedy then again.or (k s)
      else (k s).or again

def oneChar (p : Char → Bool) (k : Continuation) (s : Cursor) : Option Cursor :=
  match s.rest with
  | c :: cs => if p c then k { s with before := c :: s.before, rest := cs } else none
  | [] => none

/-- The characters of a text one after the other. -/
def oneText (same : Char → Char → Bool) (k : Continuation) : List Char → Continuation
  | [], s => k s
  | c :: cs, s => oneChar (same c) (oneText same k cs) s

def Expression.run : Expression → Continuation → Continuation
  | .empty, k, s => k s
  | .char p, k, s => oneChar p k s
  | .seq a b, k, s => a.run (b.run k) s
  | .alt a b, k, s => (a.run k s).or (b.run k s)
  | .group n a, k, s => a.run (fun t => k (t.hold n (s.taken t))) s
  | .turns min max greedy groups a, k, s =>
    repeated a.run greedy groups k (min + s.rest.length + 1) min max s
  | .backref same n, k, s =>
    match s.groups n with
    | some w => oneText same k w s
    | none => k s
  | .start, k, s => if s.before = [] then k s else none
  | .stop, k, s => if s.rest = [] then k s else none
  | .boundary negated, k, s =>
    if (s.before.head?.any wordChar != s.rest.head?.any wordChar) != negated then k s else none
  | .look negated a, k, s =>
    match a.run some s with
    | some t => if negated then none else k { s with groups := t.groups }
    | none => if negated then k s else none

/-- A match that begins at one place. -/
def Expression.matchAt (e : Expression) (before rest : List Char) : Option Cursor :=
  e.run some ⟨before, rest, fun _ => none⟩

/-- The first match and the place where it begins. -/
def Expression.searchFrom (e : Expression) : List Char → List Char → Option (ℕ × Cursor)
  | before, [] => (e.matchAt before []).map (before.length, ·)
  | before, c :: cs =>
    match e.matchAt before (c :: cs) with
    | some t => some (before.length, t)
    | none => e.searchFrom (c :: before) cs

def regexSearch (e : Expression) (text : List Char) : Option (ℕ × Cursor) := e.searchFrom [] text

/-- Every match replaced, for an expression that matches no empty text; `inside` counts what is
left of the match before. -/
def Expression.replaceFrom (e : Expression) (new : List Char) :
    List Char → ℕ → List Char → List Char
  | _, _, [] => []
  | before, inside + 1, c :: cs => e.replaceFrom new (c :: before) inside cs
  | before, 0, c :: cs =>
    match e.matchAt before (c :: cs) with
    | some t => new ++ e.replaceFrom new (c :: before) (cs.length - t.rest.length) cs
    | none => c :: e.replaceFrom new (c :: before) 0 cs

def regexReplace (e : Expression) (new text : List Char) : List Char := e.replaceFrom new [] 0 text

end Disping.Text
