import Mathlib.Data.List.Basic

/-! # Domain name queries on the wire

The part of the RFC 1035 message format that a query needs: a header of twelve bytes, questions, and
names as length-prefixed labels with the empty label of the root at the end.
-/
namespace Disping.Wire

abbrev Byte := BitVec 8

/-- A label that a length octet below 64 can announce. -/
structure Label where
  bytes : List Byte
  nonempty : 0 < bytes.length
  short : bytes.length < 64
deriving DecidableEq

abbrev DomainName := List Label

structure Header where
  id : BitVec 16
  flags : BitVec 16
  qdcount : BitVec 16
  ancount : BitVec 16
  nscount : BitVec 16
  arcount : BitVec 16
deriving DecidableEq

structure Question where
  qname : DomainName
  qtype : BitVec 16
  qclass : BitVec 16
deriving DecidableEq

structure Query where
  header : Header
  questions : List Question
deriving DecidableEq

/-! Reading. -/

def parseWord : List Byte → Option (BitVec 16 × List Byte)
  | hi :: lo :: rest => some (hi ++ lo, rest)
  | _ => none

def parseName : List Byte → Option (DomainName × List Byte)
  | [] => none
  | octet :: rest =>
    if octet = 0 then some ([], rest)
    else if h : 0 < octet.toNat ∧ octet.toNat < 64 ∧ octet.toNat ≤ rest.length then
      (parseName (rest.drop octet.toNat)).map fun (name, rest') =>
        (⟨rest.take octet.toNat, by simpa [Nat.min_eq_left h.2.2] using h.1,
          by simpa [Nat.min_eq_left h.2.2] using h.2.1⟩ :: name, rest')
    else none
termination_by bytes => bytes.length
decreasing_by simp only [List.length_drop, List.length_cons]; omega

def parseQuestion (bytes : List Byte) : Option (Question × List Byte) := do
  let (qname, bytes) ← parseName bytes
  let (qtype, bytes) ← parseWord bytes
  let (qclass, bytes) ← parseWord bytes
  some (⟨qname, qtype, qclass⟩, bytes)

def parseQuestions : ℕ → List Byte → Option (List Question × List Byte)
  | 0, bytes => some ([], bytes)
  | n + 1, bytes => do
    let (question, bytes) ← parseQuestion bytes
    let (questions, bytes) ← parseQuestions n bytes
    some (question :: questions, bytes)

def parseHeader (bytes : List Byte) : Option (Header × List Byte) := do
  let (id, bytes) ← parseWord bytes
  let (flags, bytes) ← parseWord bytes
  let (qdcount, bytes) ← parseWord bytes
  let (ancount, bytes) ← parseWord bytes
  let (nscount, bytes) ← parseWord bytes
  let (arcount, bytes) ← parseWord bytes
  some (⟨id, flags, qdcount, ancount, nscount, arcount⟩, bytes)

/-- A message without records, and the bytes behind it. -/
def parseQuery (bytes : List Byte) : Option (Query × List Byte) := do
  let (header, bytes) ← parseHeader bytes
  if header.ancount = 0 ∧ header.nscount = 0 ∧ header.arcount = 0 then
    let (questions, bytes) ← parseQuestions header.qdcount.toNat bytes
    some (⟨header, questions⟩, bytes)
  else none

/-! Writing. -/

/-- A word, the high byte first. -/
def wordBytes (w : BitVec 16) : List Byte := [w.extractLsb' 8 8, w.extractLsb' 0 8]

def Label.encode (l : Label) : List Byte := BitVec.ofNat 8 l.bytes.length :: l.bytes

def encodeName (name : DomainName) : List Byte := name.flatMap Label.encode ++ [0]

def Question.encode (q : Question) : List Byte :=
  encodeName q.qname ++ (wordBytes q.qtype ++ wordBytes q.qclass)

def Header.encode (h : Header) : List Byte :=
  wordBytes h.id ++ (wordBytes h.flags ++ (wordBytes h.qdcount ++ (wordBytes h.ancount ++
    (wordBytes h.nscount ++ wordBytes h.arcount))))

section RoundTrip
variable (rest : List Byte)

theorem parseWord_wordBytes (w : BitVec 16) : parseWord (wordBytes w ++ rest) = some (w, rest) := by
  have hword : w.extractLsb' 8 8 ++ w.extractLsb' 0 8 = w := @BitVec.extractLsb'_append_extractLsb' 8 8 w
  simp [wordBytes, parseWord, hword]

theorem Label.encode_length (l : Label) : (BitVec.ofNat 8 l.bytes.length).toNat = l.bytes.length := by
  have hshort := l.short
  rw [BitVec.toNat_ofNat]
  exact Nat.mod_eq_of_lt (by omega)

/-- A label is read back, whatever name follows. -/
theorem parseName_label (l : Label) (bytes : List Byte) : parseName (l.encode ++ bytes) =
    (parseName bytes).map fun (name, rest') => (l :: name, rest') := by
  have hlength := l.encode_length
  have hnonempty := l.nonempty
  have hshort := l.short
  have hne : ¬ BitVec.ofNat 8 l.bytes.length = 0 := by
    intro hzero
    rw [hzero] at hlength
    exact absurd hlength (Nat.ne_of_lt hnonempty)
  have hfits : 0 < l.bytes.length ∧ l.bytes.length < 64 ∧ l.bytes.length ≤ (l.bytes ++ bytes).length := by
    simp only [List.length_append]
    omega
  rw [Label.encode, List.cons_append, parseName, if_neg hne]
  simp only [hlength, dif_pos hfits, List.drop_left, List.take_left]

theorem parseName_encodeName (name : DomainName) :
    parseName (encodeName name ++ rest) = some (name, rest) := by
  induction name with
  | nil => simp [encodeName, parseName]
  | cons l name ih =>
    have hsplit : encodeName (l :: name) ++ rest = l.encode ++ (encodeName name ++ rest) := by
      simp [encodeName]
    rw [hsplit, parseName_label, ih, Option.map_some]

theorem parseQuestion_encode (q : Question) : parseQuestion (q.encode ++ rest) = some (q, rest) := by
  simp [parseQuestion, Question.encode, parseName_encodeName, parseWord_wordBytes]

theorem parseHeader_encode (h : Header) : parseHeader (h.encode ++ rest) = some (h, rest) := by
  simp [parseHeader, Header.encode, parseWord_wordBytes]

theorem parseQuestions_encode (questions : List Question) :
    parseQuestions questions.length (questions.flatMap Question.encode ++ rest) = some (questions, rest) := by
  induction questions with
  | nil => rfl
  | cons q questions ih => simp [parseQuestions, parseQuestion_encode, ih]

/-- A query is read back when its header counts its questions and no records. -/
theorem parseQuery_encode {header : Header} {questions : List Question}
    (hcount : header.qdcount.toNat = questions.length)
    (hrecords : header.ancount = 0 ∧ header.nscount = 0 ∧ header.arcount = 0) :
    parseQuery (header.encode ++ questions.flatMap Question.encode ++ rest) =
      some (⟨header, questions⟩, rest) := by
  have hquestions := parseQuestions_encode rest questions
  rw [← hcount] at hquestions
  simp [parseQuery, parseHeader_encode, hrecords, hquestions]

end RoundTrip

end Disping.Wire
