import Disping.Text.Expression

/-! # The pattern language of regular expressions

The ECMAScript grammar of `std::regex` over single bytes: a pattern is cut into tokens, and a stack of
open groups builds the expression. A pattern outside the grammar has no expression.
-/
namespace Disping.Text

/-- The classic locale's white space. -/
def isSpace (c : Char) : Bool := c ∈ [' ', '\t', '\n', '\x0b', '\x0c', '\r']

def sameFolded (c d : Char) : Bool := c.toLower == d.toLower

section Characters
variable (icase : Bool)

def same : Char → Char → Bool := if icase then sameFolded else (· == ·)

def inRange (lo hi : Char) (c : Char) : Bool :=
  if icase then [c, c.toLower, c.toUpper].any fun d => decide (lo ≤ d ∧ d ≤ hi)
  else decide (lo ≤ c ∧ c ≤ hi)

/-- Any character but the ends of lines. -/
def notLineEnd (c : Char) : Bool := c ≠ '\n' ∧ c ≠ '\r'

def classEscape : Char → Option (Char → Bool)
  | 'd' => some Char.isDigit
  | 'D' => some fun c => !c.isDigit
  | 's' => some isSpace
  | 'S' => some fun c => !isSpace c
  | 'w' => some wordChar
  | 'W' => some fun c => !wordChar c
  | _ => none

def hexDigit (c : Char) : Option ℕ :=
  if c.isDigit then some (c.toNat - '0'.toNat)
  else if 'a' ≤ c.toLower ∧ c.toLower ≤ 'f' then some (c.toLower.toNat - 'a'.toNat + 10)
  else none

/-- The value of so many hexadecimal digits, and what follows them. -/
def hexNumber : ℕ → ℕ → List Char → Option (ℕ × List Char)
  | 0, n, cs => some (n, cs)
  | k + 1, n, c :: cs => (hexDigit c).bind fun d => hexNumber k (16 * n + d) cs
  | _ + 1, _, [] => none

/-- An escape that stands for one character. -/
def characterEscape : List Char → Option (Char × List Char)
  | 'f' :: cs => some ('\x0c', cs)
  | 'n' :: cs => some ('\n', cs)
  | 'r' :: cs => some ('\r', cs)
  | 't' :: cs => some ('\t', cs)
  | 'v' :: cs => some ('\x0b', cs)
  | 'c' :: c :: cs => if c.isAlpha then some (Char.ofNat (c.toNat % 32), cs) else none
  | 'x' :: cs => (hexNumber 2 0 cs).map fun (n, rest) => (Char.ofNat n, rest)
  | 'u' :: cs => (hexNumber 4 0 cs).map fun (n, rest) => (Char.ofNat n, rest)
  | '0' :: cs => if cs.head?.any Char.isDigit then none else some ('\x00', cs)
  | c :: cs => if wordChar c then none else some (c, cs)
  | [] => none

/-- The named classes of a bracket expression. -/
def namedClass (name : List Char) : Option (Char → Bool) :=
  match String.ofList name with
  | "alnum" => some Char.isAlphanum
  | "alpha" => some Char.isAlpha
  | "blank" => some fun c => c == ' ' || c == '\t'
  | "cntrl" => some fun c => decide (c.toNat < 32 ∨ c.toNat = 127)
  | "digit" | "d" => some Char.isDigit
  | "graph" => some fun c => decide (32 < c.toNat ∧ c.toNat < 127)
  | "lower" => some Char.isLower
  | "print" => some fun c => decide (32 ≤ c.toNat ∧ c.toNat < 127)
  | "punct" => some fun c => decide (32 < c.toNat ∧ c.toNat < 127) && !c.isAlphanum
  | "space" | "s" => some isSpace
  | "upper" => some Char.isUpper
  | "w" => some wordChar
  | "xdigit" => some fun c => (hexDigit c).isSome
  | _ => none

/-- A member of a bracket expression. -/
inductive ClassAtom
  | single (c : Char)
  | set (p : Char → Bool)

/-- What stands between an opening such as `[:` and its closing, and what follows. -/
def bracketed (mark : Char) (cs : List Char) : Option (List Char × List Char) :=
  match cs.dropWhile (· ≠ mark) with
  | _ :: ']' :: rest => some (cs.takeWhile (· ≠ mark), rest)
  | _ => none

def classAtom : List Char → Option (ClassAtom × List Char)
  | '\\' :: 'b' :: cs => some (.single '\x08', cs)
  | '\\' :: c :: cs =>
    match classEscape c with
    | some p => some (.set p, cs)
    | none => (characterEscape (c :: cs)).map fun (d, rest) => (.single d, rest)
  | '[' :: ':' :: cs =>
    (bracketed ':' cs).bind fun (name, rest) => (namedClass name).map fun p => (.set p, rest)
  | '[' :: '.' :: cs =>
    (bracketed '.' cs).bind fun (name, rest) => name.head?.map fun c => (.single c, rest)
  | '[' :: '=' :: cs =>
    (bracketed '=' cs).bind fun (name, rest) => name.head?.map fun c => (.set (same icase c), rest)
  | '\\' :: [] => none
  | c :: cs => some (.single c, cs)
  | [] => none

def ClassAtom.chars : ClassAtom → Char → Bool
  | .single c => same icase c
  | .set p => p

/-- The members up to the closing bracket, one for each unit of fuel. -/
def classRanges : ℕ → List Char → Option ((Char → Bool) × List Char)
  | _, ']' :: cs => some (fun _ => false, cs)
  | 0, _ => none
  | fuel + 1, cs => do
    let (a, afterFirst) ← classAtom icase cs
    let (p, rest) ← match afterFirst with
      | '-' :: ']' :: _ => some (a.chars icase, afterFirst)
      | '-' :: afterDash => do
        let (b, afterLast) ← classAtom icase afterDash
        match a, b with
        | .single lo, .single hi => if lo ≤ hi then some (inRange icase lo hi, afterLast) else none
        | _, _ => none
      | _ => some (a.chars icase, afterFirst)
    let (others, close) ← classRanges fuel rest
    some (fun c => p c || others c, close)

inductive PatternToken
  | atom (e : Expression)
  /-- A condition on the place, which no quantifier may follow. -/
  | condition (e : Expression)
  | quantifier (min : ℕ) (max : Option ℕ) (greedy : Bool)
  | bar
  | openGroup
  | openPlain
  | openLook (negated : Bool)
  | close

def quantified (min : ℕ) (max : Option ℕ) : List Char → PatternToken × List Char
  | '?' :: cs => (.quantifier min max false, cs)
  | cs => (.quantifier min max true, cs)

def number (digits : List Char) : ℕ := Nat.ofDigitChars 10 digits 0

/-- A quantifier in braces, from the character after the opening one. -/
def bracedQuantifier (cs : List Char) : Option (PatternToken × List Char) :=
  let least := cs.takeWhile Char.isDigit
  if least = [] then none
  else
    match cs.dropWhile Char.isDigit with
    | '}' :: rest => some (quantified (number least) (some (number least)) rest)
    | ',' :: '}' :: rest => some (quantified (number least) none rest)
    | ',' :: cs' =>
      let most := cs'.takeWhile Char.isDigit
      match cs'.dropWhile Char.isDigit with
      | '}' :: rest =>
        if most ≠ [] ∧ number least ≤ number most then
          some (quantified (number least) (some (number most)) rest)
        else none
      | _ => none
    | _ => none

def escape : List Char → Option (PatternToken × List Char)
  | 'b' :: cs => some (.condition (.boundary false), cs)
  | 'B' :: cs => some (.condition (.boundary true), cs)
  | c :: cs =>
    match classEscape c with
    | some p => some (.atom (.char p), cs)
    | none =>
      if c.isDigit ∧ c ≠ '0' then
        some (.atom (.backref (same icase) (number (c :: cs.takeWhile Char.isDigit))),
          cs.dropWhile Char.isDigit)
      else (characterEscape (c :: cs)).map fun (d, rest) => (.atom (.char (same icase d)), rest)
  | [] => none

def patternToken : List Char → Option (PatternToken × List Char)
  | '^' :: cs => some (.condition .start, cs)
  | '$' :: cs => some (.condition .stop, cs)
  | '.' :: cs => some (.atom (.char notLineEnd), cs)
  | '*' :: cs => some (quantified 0 none cs)
  | '+' :: cs => some (quantified 1 none cs)
  | '?' :: cs => some (quantified 0 (some 1) cs)
  | '{' :: cs => bracedQuantifier cs
  | '|' :: cs => some (.bar, cs)
  | '(' :: '?' :: ':' :: cs => some (.openPlain, cs)
  | '(' :: '?' :: '=' :: cs => some (.openLook false, cs)
  | '(' :: '?' :: '!' :: cs => some (.openLook true, cs)
  | '(' :: cs => some (.openGroup, cs)
  | ')' :: cs => some (.close, cs)
  | '[' :: '^' :: cs =>
    (classRanges icase cs.length cs).map fun (p, rest) => (.atom (.char fun c => !p c), rest)
  | '[' :: cs => (classRanges icase cs.length cs).map fun (p, rest) => (.atom (.char p), rest)
  | '\\' :: cs => escape icase cs
  | c :: cs => if c ∈ ['}', ']'] then none else some (.atom (.char (same icase c)), cs)
  | [] => none

/-- The tokens of a pattern, one for each unit of fuel. -/
def patternTokens : ℕ → List Char → Option (List PatternToken)
  | _, [] => some []
  | 0, _ => none
  | fuel + 1, cs =>
    (patternToken icase cs).bind fun (t, rest) => (patternTokens fuel rest).map (t :: ·)

end Characters

/-- The groups inside an expression. -/
def Expression.groups : Expression → List ℕ
  | .seq a b | .alt a b => a.groups ++ b.groups
  | .group n a => n :: a.groups
  | .turns _ _ _ _ a | .look _ a => a.groups
  | _ => []

def Expression.backrefs : Expression → List ℕ
  | .seq a b | .alt a b => a.backrefs ++ b.backrefs
  | .group _ a | .turns _ _ _ _ a | .look _ a => a.backrefs
  | .backref _ n => [n]
  | _ => []

/-- A group that is still open. -/
structure Frame where
  /-- Makes the token of the whole group. -/
  closing : Expression → PatternToken
  /-- The alternatives that have ended, the last one first. -/
  ended : List Expression
  /-- The terms of the alternative so far, the last one first. -/
  terms : List Expression
  /-- The last term, while a quantifier may still follow it. -/
  last : Option Expression

namespace Frame

def opened (closing : Expression → PatternToken) : Frame := ⟨closing, [], [], none⟩

def settled (f : Frame) : List Expression := f.last.toList ++ f.terms

def alternative (f : Frame) : Expression :=
  f.settled.foldl (fun rest e => .seq e rest) .empty

def body (f : Frame) : Expression :=
  f.ended.foldl (fun others e => .alt e others) f.alternative

def push (f : Frame) : PatternToken → Option Frame
  | .atom e => some { f with terms := f.settled, last := some e }
  | .condition e => some { f with terms := e :: f.settled, last := none }
  | .quantifier min max greedy =>
    f.last.map fun e => { f with terms := .turns min max greedy e.groups e :: f.terms, last := none }
  | .bar => some { f with ended := f.alternative :: f.ended, terms := [], last := none }
  | _ => none

end Frame

/-- The expression of a list of tokens, below the innermost open group; `count` is the number of
capturing groups so far. -/
def assemble : List PatternToken → ℕ → Frame → List Frame → Option Expression
  | [], count, f, [] => if ∀ n ∈ f.body.backrefs, n ≤ count then some f.body else none
  | [], _, _, _ :: _ => none
  | .openGroup :: ts, count, f, outer =>
    assemble ts (count + 1) (.opened fun e => .atom (.group (count + 1) e)) (f :: outer)
  | .openPlain :: ts, count, f, outer => assemble ts count (.opened .atom) (f :: outer)
  | .openLook negated :: ts, count, f, outer =>
    assemble ts count (.opened fun e => .condition (.look negated e)) (f :: outer)
  | .close :: ts, count, f, parent :: outer =>
    (parent.push (f.closing f.body)).bind fun g => assemble ts count g outer
  | .close :: _, _, _, [] => none
  | t :: ts, count, f, outer => (f.push t).bind fun g => assemble ts count g outer

/-- The expression of a pattern. -/
def regex (pattern : List Char) (icase : Bool) : Option Expression :=
  (patternTokens icase pattern.length pattern).bind fun ts => assemble ts 0 (.opened .atom) []

end Disping.Text
