import Disping.Hive.Writing

/-! # The machine the program acts on

An action runs in an environment, which decides what the operating system answers, and on a
world, which it changes. Every call to the operating system takes the next number of the run;
the environment says for each number whether that call succeeds.
-/
namespace Disping.Host

open Hive

structure Environment where
  /-- the outcome of the membership test in IsRunningAsAdmin -/
  admin : Bool
  succeeds : ℕ → Bool
  /-- what the command started by the call prints -/
  output : ℕ → String
  /-- `__DATE__` and `__TIME__` of the build -/
  buildStamp : String
  wlanInterfaces : ℕ

def Environment.AllSucceed (env : Environment) : Prop := ∀ n, env.succeeds n = true

/-- The lines of a text file, each ended by a newline. -/
abbrev TextFile := List String

/-- A netsh setting, by the words that select it. -/
abbrev NetshSetting := List (List Char)

/-- The lfsvc service as the service control manager holds it. -/
structure Service where
  running : Bool
  disabled : Bool
deriving DecidableEq

structure World where
  /-- the hive under HKEY_LOCAL_MACHINE, less what netsh and the service manager keep there for themselves -/
  registry : Registry
  /-- the values SetDword and SetString stored so far, in order -/
  written : List Registry.Write
  netsh : NetshSetting → Option (List Char)
  /-- the command lines started so far, in order -/
  commands : List String
  files : String → Option TextFile
  lfsvc : Service
  /-- the persistent MTU of an interface, by the interface's name -/
  mtu : String → BitVec 32 := fun _ => 1500
  /-- automatic configuration, for each WLAN interface -/
  autoconf : ℕ → Bool
  calls : ℕ

/-- An action of the program. -/
def Win (α : Type) := Environment → World → α × World

instance : Monad Win where
  pure a := fun _ w => (a, w)
  bind m f := fun env w => f (m env w).1 env (m env w).2

variable {α β : Type} (env : Environment) (w : World)

@[simp] theorem pure_run (a : α) : (pure a : Win α) env w = (a, w) := rfl

@[simp] theorem bind_run (m : Win α) (f : α → Win β) :
    (m >>= f) env w = f (m env w).1 env (m env w).2 := rfl

@[simp] theorem ite_run (c : Prop) [Decidable c] (m n : Win α) :
    (if c then m else n) env w = if c then m env w else n env w := by
  split <;> rfl

/-- Takes the next call number; the result says whether the call succeeds. -/
def call : Win Bool := fun env w => (env.succeeds w.calls, { w with calls := w.calls + 1 })

/-- A call made only when what it needs is there. -/
def callIf (ready : Bool) : Win Bool := if ready then call else pure false

def modify (f : World → World) : Win Unit := fun _ w => ((), f w)

def look (f : World → α) : Win α := fun _ w => (f w, w)

def ask (f : Environment → α) : Win α := fun env w => (f env, w)

@[simp] theorem modify_run (f : World → World) : modify f env w = ((), f w) := rfl

@[simp] theorem look_run (f : World → α) : look f env w = (f w, w) := rfl

@[simp] theorem ask_run (f : Environment → α) : ask f env w = (f env, w) := rfl

/-- The action for each element in turn, with the results in order. -/
def forEach (f : α → Win β) : List α → Win (List β)
  | [] => pure []
  | a :: as => do
    let b ← f a
    let bs ← forEach f as
    pure (b :: bs)

theorem forEach_map {γ : Type} (f : β → Win γ) (g : α → β) (as : List α) :
    forEach f (as.map g) = forEach (fun a => f (g a)) as := by
  induction as with
  | nil => rfl
  | cons a as ih => rw [List.map_cons, forEach, forEach, ih]

theorem forEach_append (f : α → Win β) (as bs : List α) (env : Environment) (w : World) :
    (forEach f (as ++ bs) env w).2 = (forEach f bs env (forEach f as env w).2).2 := by
  induction as generalizing w with
  | nil => rfl
  | cons a as ih => exact ih (f a env w).2

/-- What every round of a loop keeps holds after the loop. -/
theorem forEach_invariant {I : World → Prop} {f : α → Win β}
    (step : ∀ a w, I w → I (f a env w).2) (as : List α) (w : World) (h : I w) :
    I (forEach f as env w).2 := by
  induction as generalizing w with
  | nil => exact h
  | cons a as ih => exact ih _ (step a w h)

/-- The outcome of an operation of the program. -/
structure OperationResult where
  success : Bool
  message : String
  details : String := ""
deriving DecidableEq

end Disping.Host
