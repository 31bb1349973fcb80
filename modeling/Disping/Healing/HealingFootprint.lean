import Disping.Healing.SteamMachine
import Disping.Host.Ensures
import Mathlib.Logic.Relation

/-! # What healings may change

Whatever calls fail and however often Steam is healed, five values of the user's hive get the values
of a running Steam, and the files change by removal or by one of the two repairs only.
-/
namespace Disping.Healing.Steam

open Hive Host Text Relation

variable {α β : Type} {sys : System} {I J K : Machine → Prop} {P : α → Prop} {Q : β → Prop}

/-- From a machine of the first kind the action ends in one of the second, with a result as told. -/
def Leads (sys : System) (I J : Machine → Prop) (f : Heal α) (P : α → Prop) : Prop :=
  ∀ m, I m → (∀ a, (f sys m).1 = some a → P a) ∧ J (f sys m).2

/-- The action keeps the invariant. -/
def Holds (sys : System) (I : Machine → Prop) (f : Heal α) : Prop := Leads sys I I f fun _ => True

theorem Leads.pure {a : α} (h : P a) : Leads sys I I (pure a) P := by
  intro m hm
  refine ⟨fun b hb => ?_, hm⟩
  cases hb
  exact h

/-- An exception passes the second action by. -/
theorem Leads.bind_of {f : Heal α} {g : α → Heal β} (hf : Leads sys I K f P) (hJ : ∀ m, K m → J m)
    (hg : ∀ a, P a → Leads sys K J (g a) Q) : Leads sys I J (f >>= g) Q := by
  intro m hm
  obtain ⟨hresult, hkept⟩ := hf m hm
  cases hrun : f sys m with
  | mk a m' =>
    rw [hrun] at hresult hkept
    cases a with
    | none =>
      rw [bind_thrown hrun]
      refine ⟨fun b hb => ?_, hJ m' hkept⟩
      cases hb
    | some a =>
      rw [bind_returned hrun]
      exact hg a (hresult a rfl) m' hkept

theorem Leads.bind {f : Heal α} {g : α → Heal β} (hf : Leads sys I I f P)
    (hg : ∀ a, P a → Leads sys I I (g a) Q) : Leads sys I I (f >>= g) Q :=
  Leads.bind_of hf (fun _ h => h) hg

theorem Holds.bind {f : Heal α} {g : α → Heal β} (hf : Holds sys I f) (hg : ∀ a, Leads sys I I (g a) Q) :
    Leads sys I I (f >>= g) Q :=
  Leads.bind hf fun a _ => hg a

theorem Leads.ite {c : Prop} [Decidable c] {f g : Heal α} (hf : c → Leads sys I J f P)
    (hg : ¬ c → Leads sys I J g P) : Leads sys I J (if c then f else g) P := by
  split
  · exact hf ‹_›
  · exact hg ‹_›

theorem Holds.pure (a : α) : Holds sys I (Pure.pure a) := Leads.pure trivial

theorem Holds.throwing : Holds sys I (throwing : Heal α) := fun _ hm => ⟨fun _ _ => trivial, hm⟩

theorem Leads.view {f : System → Machine → α} (h : ∀ m, I m → P (f sys m)) : Leads sys I I (view f) P := by
  intro m hm
  refine ⟨fun a ha => ?_, hm⟩
  cases ha
  exact h m hm

theorem Holds.view (f : System → Machine → α) : Holds sys I (view f) := Leads.view fun _ _ => trivial

/-- What is seen holds of the machine that the rest begins with. -/
theorem Leads.view_bind {f : System → Machine → α} {g : α → Heal β}
    (h : ∀ a, Leads sys (fun m => I m ∧ f sys m = a) J (g a) Q) : Leads sys I J (Steam.view f >>= g) Q :=
  fun m hm => h (f sys m) m ⟨hm, rfl⟩

theorem Leads.from {f : Heal α} (h : Leads sys I J f P) (hK : ∀ m, K m → I m) : Leads sys K J f P :=
  fun m hm => h m (hK m hm)

theorem Leads.change {f : System → Machine → Machine} (h : ∀ m, I m → J (f sys m)) :
    Leads sys I J (change f) fun _ => True :=
  fun m hm => ⟨fun _ _ => trivial, h m hm⟩

/-- An action of the current user keeps what it keeps of the user's hive. -/
theorem Leads.onUser {f : Win α} (h : ∀ m, I m → Ensures sys.toEnvironment
    (fun w => I { m with
      world := { w with registry := m.world.registry }
      currentUser := w.registry }) f P) :
    Leads sys I I (onUser f) P := by
  intro m hm
  obtain ⟨hresult, hkept⟩ := h m hm { m.world with registry := m.currentUser } hm
  refine ⟨fun a ha => ?_, hkept⟩
  cases ha
  exact hresult

theorem Leads.onMachine {f : Win α}
    (h : ∀ m, I m → Ensures sys.toEnvironment (fun w => I { m with world := w }) f P) :
    Leads sys I I (onMachine f) P := by
  intro m hm
  obtain ⟨hresult, hkept⟩ := h m hm m.world hm
  refine ⟨fun a ha => ?_, hkept⟩
  cases ha
  exact hresult

/-! The changes. -/

/-- The flags of a login that Steam does by itself. -/
def loginWrites : List Registry.Write :=
  [⟨steamKey, "RememberPassword", regDword 1⟩, ⟨steamKey, "AlreadyRetriedOfflineMode", regDword 0⟩,
   ⟨steamKey, "StartupModeTmp", regDword 0⟩, ⟨steamKey, "StartupModeTmpIsValid", regDword 0⟩]

/-- The values that a healing sets. -/
def repairs : List Registry.Write := ⟨activeProcessKey, "pid", regDword 0⟩ :: loginWrites

/-- The folders that Steam may be looked for in. -/
def SteamFolder (m : Machine) (path : String) : Prop :=
  (∃ text, textOf (m.currentUser.find steamKey "SteamPath") = some text ∧ path = withBackslashes text) ∨
    textOf (m.world.registry.find machineSteamKey "InstallPath") = some path ∨ path = standardPath

/-- The name that the account may be looked for by. -/
def AutoLoginUser (m : Machine) (user : String) : Prop :=
  user = "" ∨ textOf (m.currentUser.find steamKey "AutoLoginUser") = some user

/-- What can happen to the content of a file. -/
inductive FileStep (sys : System) (m₀ : Machine) (name : String) :
    Option (List Char) → Option (List Char) → Prop
  | lock (path : String) (x : Option (List Char)) (hpath : SteamFolder m₀ path)
      (hname : name = crashFile path) :
      FileStep sys m₀ name x none
  | vdf (path user : String) (content new : List Char) (n : ℕ) (hpath : SteamFolder m₀ path)
      (hname : name = vdfFile path) (huser : AutoLoginUser m₀ user)
      (hnew : repairedContent user.toList content = some new) :
      FileStep sys m₀ name (some content) (some (new.take n))
  | state (localAppData : String) (content new : List Char) (n : ℕ)
      (hdata : sys.localAppData = some localAppData) (hname : name = localStateFile localAppData)
      (hnew : inspect content = .dirty new) :
      FileStep sys m₀ name (some content) (some (new.take n))
  | cache (localAppData folder : String) (x : Option (List Char))
      (hdata : sys.localAppData = some localAppData) (hfolder : folder ∈ cacheFolders)
      (hname : under (joined (htmlCache localAppData) folder) name = true) :
      FileStep sys m₀ name x none

/-- A machine that healings may have made of another one. -/
structure Tended (sys : System) (m₀ m : Machine) : Prop where
  localMachine : m.world.registry = m₀.world.registry
  values : ∀ loc, m.currentUser.values loc = m₀.currentUser.values loc ∨
    ∃ w ∈ repairs, w.location = loc ∧ m.currentUser.values loc = some w.value
  keys : ∀ p, m.currentUser.HasKey p → m₀.currentUser.HasKey p ∨ p <+: path activeProcessKey
  kept : ∀ p, m₀.currentUser.HasKey p → m.currentUser.HasKey p
  contents : ∀ name, ReflTransGen (FileStep sys m₀ name) (m₀.contents name) (m.contents name)
  folders : ∀ name, m.folders name = m₀.folders name ∨ m.folders name = false ∧
    ∃ localAppData, sys.localAppData = some localAppData ∧
      ∃ folder ∈ cacheFolders, under (joined (htmlCache localAppData) folder) name = true

variable {m₀ m : Machine}

theorem Tended.refl (sys : System) (m : Machine) : Tended sys m m where
  localMachine := rfl
  values _ := .inl rfl
  keys _ h := .inl h
  kept _ h := h
  contents _ := .refl
  folders _ := .inl rfl

/-- The values that the healing reads are not among those it sets. -/
theorem Tended.find (h : Tended sys m₀ m) {name : String}
    (hname : ∀ w ∈ repairs, w.location ≠ (path steamKey, fold name)) :
    m.currentUser.find steamKey name = m₀.currentUser.find steamKey name := by
  rcases h.values (path steamKey, fold name) with hsame | ⟨w, hw, hloc, -⟩
  · exact hsame
  · exact absurd hloc (hname w hw)

theorem repairs_way : ∀ w ∈ repairs, path w.key <+: path activeProcessKey := by decide

theorem repairs_beside : ∀ w ∈ repairs, w.location ≠ (path steamKey, fold "SteamPath") ∧
    w.location ≠ (path steamKey, fold "AutoLoginUser") := by decide

section Actions

theorem numberless_machine (m : Machine) : Numberless fun w => Tended sys m₀ { m with world := w } :=
  fun _ _ h => ⟨h.localMachine, h.values, h.keys, h.kept, h.contents, h.folders⟩

theorem numberless_user (m : Machine) : Numberless fun w => Tended sys m₀
    { m with world := { w with registry := m.world.registry }, currentUser := w.registry } :=
  fun _ _ h => ⟨h.localMachine, h.values, h.keys, h.kept, h.contents, h.folders⟩

theorem tended_call : Holds sys (Tended sys m₀) (onMachine call) :=
  Leads.onMachine fun m _ => Ensures.call (numberless_machine m)

/-- Beside the files, an action keeps what is known of one. -/
theorem Leads.frame {f : Heal α} (h : Leads sys I I f P) (hf : ∀ m, (f sys m).2.contents = m.contents)
    (name : String) (x : Option (List Char)) :
    Leads sys (fun m => I m ∧ m.contents name = x) (fun m => I m ∧ m.contents name = x) f P := by
  rintro m ⟨hm, hx⟩
  obtain ⟨hresult, hkept⟩ := h m hm
  exact ⟨hresult, hkept, by rw [hf, hx]⟩

theorem tended_getString {name : String} (hname : ∀ w ∈ repairs, w.location ≠ (path steamKey, fold name)) :
    Leads sys (Tended sys m₀) (Tended sys m₀) (onUser (getString steamKey name)) fun read =>
      ∀ text, read = some text → textOf (m₀.currentUser.find steamKey name) = some text := by
  refine Leads.onUser fun m _ => Ensures.getString (numberless_user m) (by simp) fun w hw text htext => ?_
  rw [← hw.find hname]
  exact htext

theorem tended_installPath : Leads sys (Tended sys m₀) (Tended sys m₀)
    (onMachine (getString machineSteamKey "InstallPath")) fun read =>
      ∀ text, read = some text →
        textOf (m₀.world.registry.find machineSteamKey "InstallPath") = some text := by
  refine Leads.onMachine fun m _ =>
    Ensures.getString (numberless_machine m) (by simp) fun w hw text htext => ?_
  rw [← hw.localMachine]
  exact htext

/-- Each of the five writes, done or failed. -/
theorem tended_setDword {key name : String} {v : BitVec 32} (hw : ⟨key, name, regDword v⟩ ∈ repairs) :
    Holds sys (Tended sys m₀) (onUser (setDword key name v)) := by
  have hrepair : path key <+: path activeProcessKey := repairs_way ⟨key, name, regDword v⟩ hw
  refine Leads.onUser fun m _ => Ensures.storeValue (numberless_user m) ?_ ?_
  · intro w h
    refine ⟨h.localMachine, fun loc => ?_, fun p hp => ?_, fun p hp => ?_, h.contents, h.folders⟩
    · rw [Registry.values_create]
      exact h.values loc
    · rcases Registry.hasKey_create_cases _ hp with hold | hway
      · exact h.keys p hold
      · exact .inr (hway.trans hrepair)
    · exact Registry.hasKey_of_keys_subset (Registry.keys_subset_createFrom _ [] _) (h.kept p hp)
  · intro w h
    have hkeys : ∀ p, (w.registry.setValue (path key) (fold name) (regDword v)).HasKey p ↔
        w.registry.HasKey p := by
      intro p
      unfold Registry.HasKey
      rw [Registry.keys_setValue]
    refine ⟨h.localMachine, fun loc => ?_, fun p hp => h.keys p ((hkeys p).mp hp),
      fun p hp => (hkeys p).mpr (h.kept p hp), h.contents, h.folders⟩
    by_cases hkey : w.registry.HasKey (path key)
    · rw [Registry.values_setValue _ _ _ hkey]
      by_cases hloc : loc = (path key, fold name)
      · rw [hloc, Function.update_self]
        exact .inr ⟨_, hw, rfl, rfl⟩
      · rw [Function.update_of_ne hloc]
        exact h.values loc
    · have hsame : w.registry.setValue (path key) (fold name) (regDword v) = w.registry := dif_neg hkey
      rw [hsame]
      exact h.values loc

theorem tended_getSteamPath : Leads sys (Tended sys m₀) (Tended sys m₀) getSteamPath (SteamFolder m₀) := by
  refine Leads.bind (tended_getString fun w hw => (repairs_beside w hw).1) fun user huser => ?_
  cases user with
  | some text => exact Leads.pure (.inl ⟨text, huser text rfl, rfl⟩)
  | none =>
    refine Leads.bind tended_installPath fun machine hmachine => ?_
    cases machine with
    | some text => exact Leads.pure (.inr (.inl (hmachine text rfl)))
    | none => exact Leads.pure (.inr (.inr rfl))

theorem tended_steamPathOr {sPath : String} (h : SteamFolder m₀ sPath) :
    Leads sys (Tended sys m₀) (Tended sys m₀) (steamPathOr sPath) (SteamFolder m₀) := by
  unfold steamPathOr
  exact Leads.ite (fun _ => tended_getSteamPath) fun _ => Leads.pure h

/-- A change of one file. -/
theorem Tended.update (h : Tended sys m₀ m) {name : String} {x : Option (List Char)}
    (hstep : FileStep sys m₀ name (m.contents name) x) :
    Tended sys m₀ { m with contents := Function.update m.contents name x } := by
  refine ⟨h.localMachine, h.values, h.keys, h.kept, fun other => ?_, h.folders⟩
  dsimp only
  by_cases hother : other = name
  · subst hother
    rw [Function.update_self]
    exact (h.contents other).tail hstep
  · rw [Function.update_of_ne hother]
    exact h.contents other

theorem tended_clearCrashLocks {sPath : String} (h : SteamFolder m₀ sPath) :
    Holds sys (Tended sys m₀) (clearCrashLocks sPath) := by
  refine Leads.bind (tended_steamPathOr h) fun sPath hpath => Leads.ite (fun _ => Holds.pure _) fun _ => ?_
  refine Holds.bind tended_call fun ok => Holds.bind (Holds.view _) fun attr => ?_
  refine Leads.ite (fun _ => ?_) fun _ => Holds.pure _
  refine Holds.bind tended_call fun deleted => ?_
  refine Leads.ite (fun _ => ?_) fun _ => Holds.pure _
  refine Holds.bind (Leads.change fun m hm => ?_) fun _ => Holds.pure _
  exact hm.update (.lock sPath _ hpath rfl)

theorem tended_repairActiveProcessRegistry : Holds sys (Tended sys m₀) repairActiveProcessRegistry := by
  have hread : Holds sys (Tended sys m₀) (onUser (getDword activeProcessKey "pid")) := by
    refine Leads.onUser fun m _ => Keeps.bind ?_ fun _ => Keeps.pure _
    exact Ensures.queryValue (numberless_user m) trivial fun _ _ => trivial
  refine Holds.bind hread fun pid => ?_
  cases pid with
  | none => exact Holds.pure _
  | some activePid =>
    refine Leads.ite (fun _ => Holds.pure _) fun _ => ?_
    refine Holds.bind (Holds.view _) fun outcome => Leads.ite (fun _ => ?_) fun _ => Holds.pure _
    exact Holds.bind (tended_setDword (by simp [repairs, loginWrites])) fun _ => Holds.pure _

theorem tended_repairSteamLoginSettings : Holds sys (Tended sys m₀) repairSteamLoginSettings := by
  refine Holds.bind (tended_setDword (by simp [repairs, loginWrites])) fun _ => ?_
  refine Holds.bind (tended_setDword (by simp [repairs, loginWrites])) fun _ => ?_
  refine Holds.bind (tended_setDword (by simp [repairs, loginWrites])) fun _ => ?_
  exact Holds.bind (tended_setDword (by simp [repairs, loginWrites])) fun _ => Holds.pure _

/-- A write that the step allows, however much of it reaches the file. -/
theorem tended_writeContent {name : String} {x : Option (List Char)} {new : List Char}
    (hstep : ∀ n, FileStep sys m₀ name x (some (new.take n))) :
    Leads sys (fun m => Tended sys m₀ m ∧ m.contents name = x) (Tended sys m₀) (writeContent name new)
      fun _ => True := by
  have hcall := (@tended_call sys m₀).frame (fun _ => rfl) name x
  refine Leads.bind_of hcall (fun _ h => h.1) fun opened _ => ?_
  refine Leads.ite (fun _ => ?_) fun _ => (Holds.pure _).from fun _ h => h.1
  refine Leads.bind_of (Holds.view _) (fun _ h => h.1) fun number _ => ?_
  refine Leads.bind_of hcall (fun _ h => h.1) fun whole _ => ?_
  refine Leads.bind_of (Leads.change fun m hm => ?_) (fun _ h => h) fun _ _ => Holds.pure _
  obtain ⟨hkept, rfl⟩ := hm
  refine hkept.update ?_
  cases whole with
  | false => exact hstep _
  | true =>
    have hall := hstep new.length
    rwa [List.take_length] at hall

theorem tended_repairLoginUsersVdf {sPath : String} (h : SteamFolder m₀ sPath) :
    Holds sys (Tended sys m₀) (repairLoginUsersVdf sPath) := by
  refine Leads.bind (tended_steamPathOr h) fun sPath hpath => Leads.ite (fun _ => Holds.pure _) fun _ => ?_
  refine Holds.bind tended_call fun opened => Leads.view_bind fun content => ?_
  cases content with
  | none => exact (Holds.pure _).from fun _ h => h.1
  | some content =>
    refine Leads.ite (fun _ => (Holds.pure _).from fun _ h => h.1) fun _ => ?_
    have hread := (@tended_getString sys m₀ "AutoLoginUser" fun w hw => (repairs_beside w hw).2).frame
      (fun _ => rfl) (vdfFile sPath) (some content)
    refine (Leads.bind_of hread (fun _ h => h.1) fun autoUser huser => ?_).from ?_
    · have hname : AutoLoginUser m₀ (autoUser.getD "") := by
        cases autoUser with
        | none => exact .inl rfl
        | some user => exact .inr (huser user rfl)
      cases hnew : repairedContent (autoUser.getD "").toList content with
      | none => exact Holds.throwing.from fun _ h => h.1
      | some new =>
        exact tended_writeContent fun n => .vdf sPath _ content new n hpath rfl hname hnew
    · rintro m ⟨hm, hcontent⟩
      cases opened with
      | false => cases hcontent
      | true => exact ⟨hm, hcontent⟩

theorem tended_fsExists (name : String) : Holds sys (Tended sys m₀) (fsExists name) :=
  Holds.bind tended_call fun _ => Leads.ite (fun _ => Holds.view _) fun _ => Holds.throwing

theorem tended_removeCaches {localAppData : String} (hdata : sys.localAppData = some localAppData)
    {folders : List String} (hfolders : folders ⊆ cacheFolders) :
    Holds sys (Tended sys m₀) (removeCaches localAppData folders) := by
  induction folders with
  | nil => exact Holds.pure _
  | cons folder folders ih =>
    rw [List.cons_subset] at hfolders
    refine Holds.bind ?_ fun _ => ih hfolders.2
    refine Holds.bind (Holds.view _) fun number => Holds.bind tended_call fun ok => ?_
    refine Leads.change fun m hm => ?_
    refine ⟨hm.localMachine, hm.values, hm.keys, hm.kept, fun name => ?_, fun name => ?_⟩
    · dsimp only
      split
      · rename_i hgone
        rw [Bool.and_eq_true] at hgone
        exact (hm.contents name).tail (.cache localAppData folder _ hdata hfolders.1 hgone.1)
      · exact hm.contents name
    · dsimp only
      cases hgone : (under (joined (htmlCache localAppData) folder) name &&
          (ok || sys.removed number name)) with
      | false => simpa using hm.folders name
      | true =>
        rw [Bool.and_eq_true] at hgone
        exact .inr ⟨Bool.and_false _, localAppData, hdata, folder, hfolders.1, hgone.1⟩

theorem tended_cleanCorruptedHtmlCache : Holds sys (Tended sys m₀) cleanCorruptedHtmlCache := by
  refine Leads.view_bind fun data => ?_
  cases data with
  | none => exact (Holds.pure _).from fun _ h => h.1
  | some localAppData =>
    by_cases hdata : sys.localAppData = some localAppData
    · refine Leads.from (I := Tended sys m₀) ?_ fun _ h => h.1
      refine Holds.bind (tended_fsExists _) fun found => Leads.ite (fun _ => ?_) fun _ => Holds.pure _
      refine Holds.bind (tended_fsExists _) fun stateFound => Leads.ite (fun _ => ?_) fun _ => Holds.pure _
      refine Holds.bind tended_call fun opened => Leads.view_bind fun content => ?_
      cases content with
      | none => exact (Holds.pure _).from fun _ h => h.1
      | some content =>
        rw [Option.map_some]
        cases hnew : inspect content with
        | thrown => exact (Holds.pure _).from fun _ h => h.1
        | clean => exact (Holds.pure _).from fun _ h => h.1
        | dirty new =>
          have hwrite := @tended_writeContent sys m₀ _ (some content) new fun n =>
            .state localAppData content new n hdata rfl hnew
          refine (Leads.bind_of hwrite (fun _ h => h) fun cleaned _ => ?_).from ?_
          · exact Holds.bind (tended_removeCaches hdata (List.Subset.refl _)) fun _ => Holds.pure _
          · rintro m ⟨hm, hcontent⟩
            cases opened with
            | false => cases hcontent
            | true => exact ⟨hm, hcontent⟩
    · exact fun m hm => absurd hm.2 hdata

theorem tended_healSteamAndGames : Holds sys (Tended sys m₀) healSteamAndGames := by
  refine Leads.bind tended_getSteamPath fun sPath hpath => ?_
  refine Holds.bind (tended_clearCrashLocks hpath) fun _ => ?_
  refine Holds.bind tended_repairActiveProcessRegistry fun _ => ?_
  refine Holds.bind tended_repairSteamLoginSettings fun _ => ?_
  refine Holds.bind (tended_repairLoginUsersVdf hpath) fun _ => ?_
  exact Holds.bind tended_cleanCorruptedHtmlCache fun _ => Holds.pure _

end Actions

/-- After any number of healings, whatever calls fail and whatever exceptions end them. -/
theorem healings_tended (sys : System) (n : ℕ) (m : Machine) : Tended sys m ((healed sys)^[n] m) := by
  refine Function.Iterate.rec (Tended sys m) (Tended.refl sys m) (fun m' hm' => ?_) n
  exact (tended_healSteamAndGames m' hm').2

end Disping.Healing.Steam
