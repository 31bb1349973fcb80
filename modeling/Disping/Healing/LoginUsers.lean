import Mathlib.Data.List.Infix
import Disping.Host.StringValues
import Disping.Text.PairEditing

/-! # The repair of loginusers.vdf

RepairLoginUsersVdf edits the file as text: an expression made of the user's name finds the account,
and the braces next to the match delimit the block in which three keys are set. The name is read from
the registry, through a buffer of 1024 bytes.
-/
namespace Disping.Healing

open Hive Host Text

/-- `content.rfind(c, pos)`. -/
def rfind (c : Char) (content : List Char) : ℕ → Option ℕ
  | 0 => if content[0]? = some c then some 0 else none
  | pos + 1 => if content[pos + 1]? = some c then some (pos + 1) else rfind c content pos

/-- `content.find(c, pos)`. -/
def find (c : Char) (content : List Char) (pos : ℕ) : Option ℕ :=
  ((content.drop pos).findIdx? (· == c)).map (pos + ·)

/-- `block.find` of the quoted key. -/
def mentions (key : String) (block : List Char) : Bool := decide (quoted key.toList <:+: block)

/-- What the function writes for a pair. -/
def pairText (key value : String) : List Char :=
  quoted key.toList ++ (['\t', '\t'] ++ quoted value.toList)

def pairPattern (key : String) : List Char := quoted key.toList ++ "\\s*\"[^\"]*\"".toList

def replacePair (key value : String) (block : List Char) : Option (List Char) :=
  (regex (pairPattern key) false).map fun e => regexReplace e (pairText key value) block

/-- `block.insert(block.length() - 1, ...)`. -/
def insertPair (key value : String) (block : List Char) : List Char :=
  block.take (block.length - 1) ++ (['\t', '\t'] ++ pairText key value ++ ['\n', '\t']) ++
    block.drop (block.length - 1)

def repairBlock (block : List Char) : Option (List Char) := do
  let block ← if mentions "MostRecent" block then replacePair "MostRecent" "1" block
    else some (insertPair "MostRecent" "1" block)
  let block ← if mentions "RememberPassword" block then replacePair "RememberPassword" "1" block
    else some (insertPair "RememberPassword" "1" block)
  if mentions "WantsOfflineMode" block then replacePair "WantsOfflineMode" "0" block
  else some block

def accountPattern (autoUser : List Char) : List Char :=
  quoted "AccountName".toList ++ "\\s*\"".toList ++ autoUser ++ ['"']

/-- Where the expression made of the name matches first. -/
def nameSearch (autoUser content : List Char) : Option (Option ℕ) :=
  (regex (accountPattern autoUser) true).map fun reAcc => (regexSearch reAcc content).map Prod.fst

/-- With a user name: the block around the match is edited. -/
def repairAccount (autoUser content : List Char) : Option (List Char) := do
  match ← nameSearch autoUser content with
  | none => some content
  | some matchPos =>
    match rfind '{' content matchPos, find '}' content matchPos with
    | some blockStart, some blockEnd =>
      if blockStart < blockEnd then do
        let block ← repairBlock ((content.drop blockStart).take (blockEnd - blockStart + 1))
        some (content.take blockStart ++ block ++ content.drop (blockEnd + 1))
      else some content
    | _, _ => some content

def firstPattern : List Char := "\"MostRecent\"\\s*\"0\"".toList

/-- Without a user name: where no account reads as the last one, the first that reads 0 is. -/
def repairFirst (content : List Char) : Option (List Char) :=
  if pairText "MostRecent" "1" <:+: content ∨ "\"MostRecent\" \"1\"".toList <:+: content then
    some content
  else
    (regex firstPattern false).map fun reFirstMR =>
      match regexSearch reFirstMR content with
      | some (pos, stop) => content.take pos ++ pairText "MostRecent" "1" ++ stop.rest
      | none => content

/-- The text that is written; none where the name makes no regular expression. -/
def repairedContent (autoUser content : List Char) : Option (List Char) :=
  if autoUser ≠ [] then repairAccount autoUser content else repairFirst content

/-- How far the writing of a file gets. -/
structure WriteOutcome where
  opened : Bool
  /-- The number of bytes that reach the file. -/
  reached : ℕ

/-- How a function ends: the value it returns, none where an exception leaves it, and the content of
the file. -/
structure Ended where
  returned : Option Bool
  content : List Char
deriving DecidableEq

/-- The end of both functions: the file is emptied and written. -/
def writeFile (out : WriteOutcome) (old new : List Char) : Ended :=
  if out.opened then ⟨some true, new.take out.reached⟩ else ⟨some false, old⟩

/-- The repair of loginusers.vdf with the outcome of its write. -/
def repairLoginUsersFile (readable : Bool) (out : WriteOutcome) (autoUser content : List Char) :
    Ended :=
  if !readable then ⟨some false, content⟩
  else if content = [] then ⟨some false, content⟩
  else
    match repairedContent autoUser content with
    | none => ⟨none, content⟩
    | some new => writeFile out content new

/-- What opening the file returns. -/
structure VdfCalls where
  readable : Bool
  writable : Bool

/-- The value that holds a name. -/
def nameValue (user : List Char) : RegValue := ⟨.sz, user ++ ['\x00']⟩

/-- The name as GetString reads it; empty where it cannot. -/
def autoUserOf (autoLoginUser : Option RegValue) : List Char := ((textOf autoLoginUser).getD "").toList

/-- RepairLoginUsersVdf with a write that gets to the end of the file. -/
def repairLoginUsersVdf (calls : VdfCalls) (autoLoginUser : Option RegValue) (content : List Char) :
    Ended :=
  let autoUser := autoUserOf autoLoginUser
  let reached := ((repairedContent autoUser content).getD []).length
  repairLoginUsersFile calls.readable ⟨calls.writable, reached⟩ autoUser content

end Disping.Healing
