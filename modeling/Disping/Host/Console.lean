import Disping.Host.RegistryUtil

/-! # Commands and batch scripts

A command line is read as the interpreter reads it: words are separated by spaces outside double
quotes, and redirections are taken out. The commands this program starts or writes into its
script are netsh, reg add, ipconfig and the built-in ones.
-/
namespace Disping.Host

open Hive

def wordsFrom (quoted : Bool) (word : List Char) : List Char → List (List Char)
  | [] => if word = [] then [] else [word.reverse]
  | c :: cs =>
    if c = '"' then wordsFrom (!quoted) word cs
    else if c = ' ' ∧ quoted = false then
      if word = [] then wordsFrom false [] cs else word.reverse :: wordsFrom false [] cs
    else wordsFrom quoted (c :: word) cs

/-- A word of a command line. -/
abbrev Word := List Char

/-- `> target` takes two words, `>target` and `2>&1` take one. -/
def dropRedirections : List Word → List Word
  | [] => []
  | [w] => if '>' ∈ w then [] else [w]
  | w :: v :: ws =>
    if w = ['>'] then dropRedirections ws
    else if '>' ∈ w then dropRedirections (v :: ws)
    else w :: dropRedirections (v :: ws)

/-- The words of a command line, without its redirections. -/
def commandOf (line : List Char) : List Word := dropRedirections (wordsFrom false [] line)

def command (line : String) : List Word := commandOf line.toList

theorem command_literal {line : String} {cs : List Char} (h : line = String.ofList cs) :
    command line = commandOf cs := by
  rw [command, toList_literal h]

/-- Words that a command line is compared with. -/
def texts (ws : List String) : List Word := ws.map String.toList

/-- `name=value` -/
def assignment (word : Word) : Option (Word × Word) :=
  match word.splitOn '=' with
  | [name, value] => some (name, value)
  | _ => none

/-- The setting a netsh command names, and its new value. -/
def netshAssignment (line : List Word) : Option (NetshSetting × Word) :=
  match line with
  | [netsh, int, context, set, object, value] =>
    if [netsh, int, context, set, object] = texts ["netsh", "int", "tcp", "set", "heuristics"] then
      some ([context, object], value)
    else if [netsh, int, set, object] = texts ["netsh", "int", "set", "global"] then
      (assignment value).map fun a => ([context, object, a.1], a.2)
    else none
  | [netsh, int, context, set, object, template, value] =>
    if [netsh, int, context, set, object] =
        texts ["netsh", "int", "tcp", "set", "supplemental"] then
      (assignment value).map fun a => ([context, object, template, a.1], a.2)
    else none
  | _ => none

def decimal (digits : Word) : Option ℕ :=
  if digits ≠ [] ∧ digits.all Char.isDigit then some (Nat.ofDigitChars 10 digits 0) else none

/-- The key below HKEY_LOCAL_MACHINE that `reg` names. -/
def machineKey (word : Word) : Option String :=
  if "HKLM\\".toList <+: word then some (String.ofList (word.drop 5)) else none

/-- The write of `reg add KEY /v NAME /t REG_DWORD /d DATA /f`. -/
def regAddition (line : List Word) : Option Registry.Write :=
  match line with
  | [reg, add, key, v, name, t, type, d, data, f] =>
    if [reg, add, v, t, type, d, f] = texts ["reg", "add", "/v", "/t", "REG_DWORD", "/d", "/f"] then
      match machineKey key, decimal data with
      | some subKey, some n => some ⟨subKey, String.ofList name, regDword (BitVec.ofNat 32 n)⟩
      | _, _ => none
    else none
  | _ => none

def setNetsh (w : World) (a : NetshSetting × Word) : World :=
  { w with netsh := Function.update w.netsh a.1 (some a.2) }

/-- What a command that succeeds changes. -/
def effect (line : List Word) (w : World) : World :=
  match netshAssignment line, regAddition line with
  | some a, _ => setNetsh w a
  | none, some write => { w with registry := w.registry.apply write }
  | none, none => w

/-- Runs a command line; the result is what it prints. -/
def runCommand (cmd : String) : Win String := do
  let number ← look World.calls
  modify fun w => { w with commands := w.commands ++ [cmd] }
  if ← call then
    modify (effect (command cmd))
    ask fun env => env.output number
  else pure ""

/-- `system`, whose callers here drop the exit code. -/
def system (cmd : String) : Win Unit := do
  let _ ← runCommand cmd
  pure ()

/-- What a line is to the batch interpreter. -/
inductive LineKind
  | command
  | netSession
  | ifFailed
  | blockEnd
  | exit
  | inert
deriving DecidableEq

/-- Comments, echoed texts, pauses and the DNS flush change nothing that is modelled. -/
def kindOf (line : List Word) : LineKind :=
  match line with
  | [] => .inert
  | first :: rest =>
    if first = "netsh".toList ∨ first = "reg".toList then .command
    else if first :: rest = texts ["net", "session"] then .netSession
    else if first :: rest = texts ["if", "%errorlevel%", "neq", "0", "("] then .ifFailed
    else if first :: rest = texts [")"] then .blockEnd
    else if first = "exit".toList then .exit
    else .inert

def lineKind (line : String) : LineKind := kindOf (command line)

/-- Runs the lines from one on, with the last error level, and whether it stands in a block whose
condition was false. -/
def runLines : List (LineKind × String) → ℕ → Bool → Win Unit
  | [], _, _ => pure ()
  | (.blockEnd, _) :: rest, errorlevel, _ => runLines rest errorlevel false
  | (.ifFailed, _) :: rest, errorlevel, _ => runLines rest errorlevel (errorlevel = 0)
  | (.inert, _) :: rest, errorlevel, skipping => runLines rest errorlevel skipping
  | (.exit, _) :: rest, errorlevel, skipping =>
    if skipping then runLines rest errorlevel skipping else pure ()
  | (.netSession, _) :: rest, errorlevel, skipping => do
    let admin ← isRunningAsAdmin
    runLines rest (if skipping then errorlevel else if admin then 0 else 2) skipping
  | (.command, line) :: rest, errorlevel, skipping =>
    if skipping then runLines rest errorlevel skipping
    else do
      system line
      runLines rest errorlevel skipping

def runScript (script : TextFile) : Win Unit :=
  runLines (script.map fun line => (lineKind line, line)) 0 false

end Disping.Host
