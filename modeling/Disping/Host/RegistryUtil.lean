import Disping.Host.World

/-! # The registry calls of the program

The functions of RegistryUtil on HKEY_LOCAL_MACHINE, over the Windows calls they make. A call
that the environment lets fail changes nothing.
-/
namespace Disping.Host

open Hive

/-- The four bytes of a DWORD, the least significant first. -/
def dwordBytes (v : BitVec 32) : List Char :=
  (List.range 4).map fun i => Char.ofNat (v.toNat / 256 ^ i % 256)

/-- The DWORD with these bytes, those missing zero. -/
def dwordOfBytes (data : List Char) : BitVec 32 :=
  BitVec.ofNat 32 (data.foldr (fun c n => c.toNat + 256 * n) 0)

def regDword (v : BitVec 32) : RegValue := ⟨.dword, dwordBytes v⟩

/-- A string with its terminating zero, of as many bytes as the DWORD cbData counts. -/
def regString (s : String) : RegValue :=
  ⟨.sz, (s.toList ++ ['\x00']).take ((s.toList.length + 1) % 2 ^ 32)⟩

def regCreateKeyEx (subKey : String) : Win Bool := do
  if ← call then
    modify fun w => { w with registry := w.registry.create (components subKey) }
    pure true
  else pure false

def regSetValueEx (subKey valueName : String) (value : RegValue) : Win Bool := do
  if ← call then
    modify fun w => { w with
      registry := w.registry.setValue (path subKey) (fold valueName) value
      written := w.written ++ [⟨subKey, valueName, value⟩] }
    pure true
  else pure false

def regOpenKeyEx (subKey : String) : Win Bool := do
  if ← call then look fun w => decide (w.registry.HasKey (path subKey))
  else pure false

def regQueryValueEx (subKey valueName : String) : Win (Option RegValue) := do
  if ← call then look fun w => w.registry.find subKey valueName
  else pure none

def regDeleteValue (subKey valueName : String) : Win Bool := do
  if ← call then
    let held ← look fun w => (w.registry.find subKey valueName).isSome
    if held then
      modify fun w => { w with
        registry := w.registry.deleteValue (path subKey) (fold valueName) }
    pure held
  else pure false

/-- A key that still has subkeys stays. -/
def regDeleteKey (subKey : String) : Win Bool := do
  if ← call then
    let deletable ← look fun w =>
      decide (w.registry.HasKey (path subKey) ∧ w.registry.subKeys (path subKey) = [])
    if deletable then
      modify fun w => { w with registry := w.registry.deleteKey (path subKey) }
    pure deletable
  else pure false

/-- RegCreateKeyExA, then RegSetValueExA: the body SetDword and SetString share. -/
def storeValue (subKey valueName : String) (value : RegValue) : Win Bool := do
  let opened ← regCreateKeyEx subKey
  if opened then regSetValueEx subKey valueName value
  else pure false

def setDword (subKey valueName : String) (value : BitVec 32) : Win Bool :=
  storeValue subKey valueName (regDword value)

def setString (subKey valueName value : String) : Win Bool :=
  storeValue subKey valueName (regString value)

/-- RegOpenKeyExA, then RegQueryValueExA into a buffer of the given size. -/
def queryValue (subKey valueName : String) (bufferSize : ℕ) : Win (Option RegValue) := do
  let opened ← regOpenKeyEx subKey
  if opened then
    let value ← regQueryValueEx subKey valueName
    pure (value.filter fun v => v.data.length ≤ bufferSize)
  else pure none

def dwordOf (v : RegValue) : Option (BitVec 32) :=
  if v.type = .dword then some (dwordOfBytes v.data) else none

def stringOf (v : RegValue) : Option String :=
  if v.type = .sz ∨ v.type = .expandSz then
    some (String.ofList (v.data.takeWhile (· ≠ '\x00')))
  else none

def getDword (subKey valueName : String) : Win (Option (BitVec 32)) := do
  let value ← queryValue subKey valueName 4
  pure (value.bind dwordOf)

def getString (subKey valueName : String) : Win (Option String) := do
  let value ← queryValue subKey valueName 1024
  pure (value.bind stringOf)

def deleteValue (subKey valueName : String) : Win Bool := do
  let opened ← regOpenKeyEx subKey
  if opened then regDeleteValue subKey valueName
  else pure false

/-- The enumeration loop from the next key on; it ends at the first call that fails. -/
def enumerateFrom : List KeyName → Win (List String)
  | [] => do
    let _ ← call
    pure []
  | k :: ks => do
    if ← call then
      let names ← enumerateFrom ks
      pure (k.text :: names)
    else pure []

def enumerateSubKeys (subKey : String) : Win (List String) := do
  let opened ← regOpenKeyEx subKey
  if opened then
    let names ← look fun w => w.registry.subKeys (path subKey)
    enumerateFrom names
  else pure []

def isRunningAsAdmin : Win Bool := ask Environment.admin

end Disping.Host
