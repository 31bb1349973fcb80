import Mathlib.Data.List.TakeWhile
import Disping.Host.Effects

/-! # Strings stored and read back

SetString stores any number of bytes and a zero behind them. GetString has a buffer of 1024 bytes, and
takes what is in it up to the first zero.
-/
namespace Disping.Host

open Hive

/-- What SetString reports as stored, a GetString that follows gives back. -/
def ReadsBack (env : Environment) (subKey valueName value : String) (w : World) : Prop :=
  (setString subKey valueName value env w).1 = true →
    (getString subKey valueName env (setString subKey valueName value env w).2).1 = some value

/-- Short enough for the buffer with the terminating zero, and without a zero of its own. -/
structure FitsBuffer (value : String) : Prop where
  length : value.length ≤ 1023
  unterminated : '\x00' ∉ value.toList

variable {env : Environment} {value : String}

theorem stringOf_regString (value : String) : stringOf (regString value) =
    some (String.ofList ((regString value).data.takeWhile (· ≠ '\x00'))) :=
  if_pos (Or.inl rfl)

/-- A string whose length the DWORD holds is stored whole. -/
theorem regString_data (h : value.length + 1 < 2 ^ 32) :
    (regString value).data = value.toList ++ ['\x00'] := by
  rw [regString, String.length_toList, Nat.mod_eq_of_lt h]
  refine List.take_of_length_le ?_
  rw [List.length_append, String.length_toList]
  exact Nat.le_refl _

/-- The bytes in the buffer up to a zero are the string again. -/
theorem regString_read_iff : ((regString value).data.length ≤ 1024 ∧
    (regString value).data.takeWhile (· ≠ '\x00') = value.toList) ↔ FitsBuffer value := by
  constructor
  · rintro ⟨hbuffer, hread⟩
    -- what is read is no longer than what was stored, so the DWORD did not wrap
    have hlength : value.length ≤ (regString value).data.length := by
      rw [← String.length_toList, ← hread]
      exact (List.takeWhile_prefix _).length_le
    have hdata : (regString value).data = value.toList ++ ['\x00'] := regString_data (by omega)
    refine ⟨?_, fun hzero => ?_⟩
    · rw [hdata, List.length_append, String.length_toList] at hbuffer
      exact Nat.le_of_succ_le_succ hbuffer
    · rw [← hread] at hzero
      simpa using List.mem_takeWhile_imp hzero
  · rintro ⟨hlength, hzero⟩
    have hdata : (regString value).data = value.toList ++ ['\x00'] := regString_data (by omega)
    rw [hdata]
    refine ⟨?_, ?_⟩
    · rw [List.length_append, String.length_toList]
      exact Nat.succ_le_succ hlength
    · have hall : ∀ c ∈ value.toList, decide (c ≠ '\x00') = true := by
        intro c hc
        exact decide_eq_true fun heq => hzero (heq ▸ hc)
      rw [List.takeWhile_append_of_pos hall]
      simp

theorem setString_run (ok : env.AllSucceed) (subKey valueName value : String) (w : World) :
    (setString subKey valueName value env w).1 = true ∧
      (setString subKey valueName value env w).2.registry =
        w.registry.apply ⟨subKey, valueName, regString value⟩ := by
  rw [setString, storeValue_run ok]
  exact ⟨rfl, rfl⟩

/-- The text of a value that fits the buffer of GetString. -/
def textOf (value : Option RegValue) : Option String :=
  (value.filter fun v => v.data.length ≤ 1024).bind stringOf

theorem getString_run (ok : env.AllSucceed) (subKey valueName : String) (w : World) :
    (getString subKey valueName env w).1 =
      textOf (w.registry.find subKey valueName) := by
  obtain ⟨hvalue, -⟩ := queryValue_run ok subKey valueName 1024 w
  exact congrArg (fun v => v.bind stringOf) hvalue

/-- A string comes back exactly when it fits the buffer of the reader. -/
theorem readsBack_iff (ok : env.AllSucceed) (subKey valueName value : String) (w : World) :
    ReadsBack env subKey valueName value w ↔ FitsBuffer value := by
  obtain ⟨hstored, hregistry⟩ := setString_run ok subKey valueName value w
  have hfind : (w.registry.apply ⟨subKey, valueName, regString value⟩).find subKey valueName =
      some (regString value) := Registry.find_apply _ subKey valueName _
  rw [ReadsBack, imp_iff_right hstored, getString_run ok, hregistry, hfind, ← regString_read_iff, textOf]
  by_cases hbuffer : (regString value).data.length ≤ 1024
  · rw [Option.filter_some_pos (by simpa using hbuffer), Option.bind_some, stringOf_regString,
      Option.some.injEq, and_iff_right hbuffer]
    constructor
    · intro h
      have hlist := congrArg String.toList h
      rwa [String.toList_ofList] at hlist
    · intro h
      rw [h, String.ofList_toList]
  · rw [Option.filter_some_neg (by simpa using hbuffer)]
    exact iff_of_false nofun fun h => hbuffer h.1

/-- Every call succeeds. -/
def registryWorks : Environment where
  admin := true
  succeeds _ := true
  output _ := ""
  buildStamp := "Jan  1 2025 12:00:00"
  wlanInterfaces := 0

/-- A machine with an empty hive. -/
def emptyMachine : World where
  registry := .empty
  written := []
  netsh _ := none
  commands := []
  files _ := none
  lfsvc := ⟨false, false⟩
  autoconf _ := false
  calls := 0

theorem readsBack_driverDesc :
    ReadsBack registryWorks "SYSTEM\\Class\\0001" "DriverDesc" "TAP-Windows Adapter V9" emptyMachine :=
  (readsBack_iff (fun _ => rfl) _ _ _ _).mpr ⟨by decide, by decide⟩

/-- A string of 1024 bytes is stored, and cannot be read. -/
theorem not_readsBack_long : ¬ ∀ (env : Environment) (subKey valueName value : String) (w : World),
    env.AllSucceed → ReadsBack env subKey valueName value w := by
  intro h
  have hread := h registryWorks "SOFTWARE" "Name" (String.ofList (List.replicate 1024 'x'))
    emptyMachine fun _ => rfl
  rw [readsBack_iff fun _ => rfl] at hread
  have hlength := hread.length
  rw [String.length_ofList, List.length_replicate] at hlength
  exact absurd hlength (by decide)

end Disping.Host
