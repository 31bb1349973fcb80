import Disping.Healing.HealingFootprint

/-! # The two files of a healing

The steps that write loginusers.vdf and Local State are the functions that the other modules follow on the
content alone, with the name that the hive has and a write that may break off.
-/
namespace Disping.Healing.Steam

open Hive Host

/-- What a step returns, and leaves in a file. -/
structure Leaves (name : String) (e : Ended) (ended : Option Bool × Machine) : Prop where
  returned : ended.1 = e.returned
  content : ended.2.contents name = some e.content

variable {sys : System} {m : Machine} {name : String}

theorem writeContent_leaves {old : List Char} (hold : m.contents name = some old) (new : List Char) :
    ∃ out, Leaves name (writeFile out old new) (writeContent name new sys m) := by
  cases hopened : sys.succeeds m.world.calls with
  | false =>
    refine ⟨⟨false, 0⟩, ?_⟩
    have hrun : writeContent name new sys m =
        (some false, { m with world := { m.world with calls := m.world.calls + 1 } }) := by
      simp [writeContent, bind, pure, onMachine, call, hopened]
    rw [hrun]
    exact ⟨rfl, hold⟩
  | true =>
    let number := m.world.calls + 1
    refine ⟨⟨true, if sys.succeeds number then new.length else sys.reached number⟩, ?_, ?_⟩
    · simp [writeContent, bind, pure, onMachine, call, view, change, hopened, writeFile]
    · simp [writeContent, bind, pure, onMachine, call, view, change, hopened, writeFile, number]
      split <;> simp

/-- The name that is read, or none where the read fails. -/
theorem getString_read (m : Machine) : ∃ (autoUser : Option String) (m' : Machine),
    onUser (getString steamKey "AutoLoginUser") sys m = (some autoUser, m') ∧ m'.contents = m.contents ∧
      AutoLoginUser m (autoUser.getD "") := by
  refine ⟨_, _, rfl, rfl, ?_⟩
  have hread : Ensures sys.toEnvironment (fun w => w.registry = m.currentUser)
      (getString steamKey "AutoLoginUser") fun read =>
        ∀ text, read = some text → textOf (m.currentUser.find steamKey "AutoLoginUser") = some text := by
    refine Ensures.getString (fun _ _ h => h) (by simp) fun w hw text htext => ?_
    rw [← hw]
    exact htext
  have hname := (hread { m.world with registry := m.currentUser } rfl).1
  cases hresult : (getString steamKey "AutoLoginUser" sys.toEnvironment
      { m.world with registry := m.currentUser }).1 with
  | none => exact .inl rfl
  | some text => exact .inr (hname text hresult)

/-- The step that repairs loginusers.vdf, where the file is there. -/
theorem repairLoginUsersVdf_leaves {sPath : String} (hpath : sPath ≠ "") {content : List Char}
    (hfile : m.contents (vdfFile sPath) = some content) :
    ∃ readable out user, AutoLoginUser m user ∧
      Leaves (vdfFile sPath) (repairLoginUsersFile readable out user.toList content)
        (repairLoginUsersVdf sPath sys m) := by
  cases hopened : sys.succeeds m.world.calls with
  | false =>
    refine ⟨false, ⟨false, 0⟩, "", .inl rfl, ?_, ?_⟩ <;>
      simp [repairLoginUsersVdf, steamPathOr, hpath, bind, pure, onMachine, call, view, hopened, hfile,
        repairLoginUsersFile]
  | true =>
    by_cases hempty : content = []
    · refine ⟨true, ⟨false, 0⟩, "", .inl rfl, ?_, ?_⟩ <;>
        simp [repairLoginUsersVdf, steamPathOr, hpath, bind, pure, onMachine, call, view, hopened, hfile,
          hempty, repairLoginUsersFile]
    let opened : Machine := { m with world := { m.world with calls := m.world.calls + 1 } }
    obtain ⟨autoUser, m', hread, hcontents, hname⟩ := @getString_read sys opened
    cases hnew : repairedContent (autoUser.getD "").toList content with
    | none =>
      have hrun : repairLoginUsersVdf sPath sys m = (none, m') := by
        simp [repairLoginUsersVdf, steamPathOr, hpath, bind, pure, onMachine, call, view, hopened, hfile,
          hempty, hread, hnew, throwing, opened]
      refine ⟨true, ⟨false, 0⟩, autoUser.getD "", hname, ?_, ?_⟩
      · simp [hrun, repairLoginUsersFile, hempty, hnew]
      · simp [hrun, repairLoginUsersFile, hempty, hnew, hcontents, opened, hfile]
    | some new =>
      have hrun : repairLoginUsersVdf sPath sys m = writeContent (vdfFile sPath) new sys m' := by
        simp [repairLoginUsersVdf, steamPathOr, hpath, bind, pure, onMachine, call, view, hopened, hfile,
          hempty, hread, hnew, opened]
      have hold : m'.contents (vdfFile sPath) = some content := hcontents ▸ hfile
      obtain ⟨out, hleaves⟩ := @writeContent_leaves sys _ _ _ hold new
      refine ⟨true, out, autoUser.getD "", hname, ?_⟩
      rw [hrun]
      simpa [repairLoginUsersFile, hempty, hnew] using hleaves

theorem joined_eq (path : String) : ∃ s, ∀ name, joined path name = s ++ name := by
  unfold joined
  cases path.toList.getLast? with
  | none => exact ⟨"", fun name => String.empty_append.symm⟩
  | some c =>
    by_cases hc : c = '\\' ∨ c = '/' ∨ c = ':'
    · exact ⟨path, fun name => if_pos hc⟩
    · exact ⟨path ++ "\\", fun name => if_neg hc⟩

/-- Local State is in none of the folders that are removed. -/
theorem not_under_localState {folder : String} (h : folder ∈ cacheFolders) (localAppData : String) :
    under (joined (htmlCache localAppData) folder) (localStateFile localAppData) = false := by
  have hother : ∀ folder ∈ cacheFolders, folder.toList ≠ "Local State".toList ∧
      ¬ folder.toList ++ ['\\'] <+: "Local State".toList := by decide
  obtain ⟨hne, hprefix⟩ := hother folder h
  obtain ⟨s, hs⟩ := joined_eq (htmlCache localAppData)
  rw [localStateFile, hs, hs, under, Bool.or_eq_false_iff, decide_eq_false_iff_not, ← Bool.not_eq_true,
    List.isPrefixOf_iff_prefix, String.toList_append, String.toList_append, List.append_assoc,
    List.prefix_append_right_inj]
  refine ⟨fun heq => hne ?_, hprefix⟩
  have hlists := congrArg String.toList heq
  rw [String.toList_append, String.toList_append] at hlists
  exact (List.append_cancel_left hlists).symm

theorem removeCaches_keeps (localAppData : String) {folders : List String}
    (h : ∀ folder ∈ folders, under (joined (htmlCache localAppData) folder) name = false) (m : Machine) :
    ∃ m', removeCaches localAppData folders sys m = (some (), m') ∧ m'.contents name = m.contents name := by
  induction folders generalizing m with
  | nil => exact ⟨m, rfl, rfl⟩
  | cons folder folders ih =>
    obtain ⟨hfolder, hfolders⟩ := List.forall_mem_cons.mp h
    obtain ⟨m', hm', hkept⟩ : ∃ m', removeAll (joined (htmlCache localAppData) folder) sys m = (some (), m') ∧
        m'.contents name = m.contents name := by
      refine ⟨_, rfl, ?_⟩
      simp [hfolder]
    obtain ⟨m'', hm'', hkept'⟩ := ih hfolders m'
    refine ⟨m'', ?_, hkept'.trans hkept⟩
    rw [removeCaches, bind_returned hm', hm'']

theorem fsExists_run (name : String) (m : Machine) : ∃ m', m'.contents = m.contents ∧ m'.folders = m.folders ∧
    fsExists name sys m = (if sys.succeeds m.world.calls then some (m.there name) else none, m') := by
  refine ⟨{ m with world := { m.world with calls := m.world.calls + 1 } }, rfl, rfl, ?_⟩
  cases hfound : sys.succeeds m.world.calls <;>
    simp [fsExists, bind, onMachine, call, view, throwing, hfound, Machine.there]

/-- Writing Local State and removing the caches after it. -/
theorem writeContent_removeCaches_leaves (localAppData : String) {content : List Char}
    (hfile : m.contents (localStateFile localAppData) = some content) (new : List Char) :
    ∃ out, Leaves (localStateFile localAppData) (writeFile out content new)
      ((do
        let cleaned ← writeContent (localStateFile localAppData) new
        removeCaches localAppData cacheFolders
        pure cleaned : Heal Bool) sys m) := by
  obtain ⟨out, hreturned, hleft⟩ := @writeContent_leaves sys _ _ _ hfile new
  refine ⟨out, ?_⟩
  let m₁ := (writeContent (localStateFile localAppData) new sys m).2
  obtain ⟨m₂, hremoved, hkept⟩ := @removeCaches_keeps sys (localStateFile localAppData)
    localAppData cacheFolders (fun folder hfolder => not_under_localState hfolder localAppData) m₁
  obtain ⟨cleaned, hcleaned⟩ : ∃ cleaned, (writeFile out content new).returned = some cleaned := by
    unfold writeFile
    split <;> exact ⟨_, rfl⟩
  have hwritten : writeContent (localStateFile localAppData) new sys m = (some cleaned, m₁) :=
    Prod.ext (hreturned.trans hcleaned) rfl
  rw [bind_returned hwritten, bind_returned hremoved]
  exact ⟨hcleaned.symm, hkept.trans hleft⟩

/-- The step that cleans Local State, where the file is there. -/
theorem cleanCorruptedHtmlCache_leaves {localAppData : String} (hdata : sys.localAppData = some localAppData)
    {content : List Char} (hfile : m.contents (localStateFile localAppData) = some content) :
    ∃ calls out, Leaves (localStateFile localAppData) (Healing.cleanCorruptedHtmlCache calls out content)
      (cleanCorruptedHtmlCache sys m) := by
  obtain ⟨m₁, hcontents₁, -, hcache⟩ := @fsExists_run sys (htmlCache localAppData) m
  obtain ⟨m₂, hcontents₂, -, hstate⟩ := @fsExists_run sys (localStateFile localAppData) m₁
  have hfile₁ : m₁.contents (localStateFile localAppData) = some content := hcontents₁ ▸ hfile
  have hfile₂ : m₂.contents (localStateFile localAppData) = some content := hcontents₂ ▸ hfile₁
  have hthere : m₁.there (localStateFile localAppData) = true := by simp [Machine.there, hfile₁]
  have hstart : (view fun sys _ => sys.localAppData) sys m = (some (some localAppData), m) := by
    rw [view, hdata]
  have hkept : ∀ {r m'}, m'.contents (localStateFile localAppData) = some content →
      cleanCorruptedHtmlCache sys m = (r, m') → ∀ calls out,
        Healing.cleanCorruptedHtmlCache calls out content = ⟨r, content⟩ →
          Leaves (localStateFile localAppData) (Healing.cleanCorruptedHtmlCache calls out content)
            (cleanCorruptedHtmlCache sys m) := by
    intro r m' hm' hrun calls out hended
    rw [hrun, hended]
    exact ⟨rfl, hm'⟩
  cases hanswer : sys.succeeds m.world.calls with
  | false =>
    rw [hanswer] at hcache
    refine ⟨⟨true, none, none, true⟩, ⟨true, 0⟩, hkept hfile₁ ?_ _ _ rfl⟩
    rw [cleanCorruptedHtmlCache, bind_returned hstart]
    exact bind_thrown hcache
  | true =>
    rw [hanswer, if_pos rfl] at hcache
    cases hfound : m.there (htmlCache localAppData) with
    | false =>
      rw [hfound] at hcache
      refine ⟨⟨true, some false, none, true⟩, ⟨true, 0⟩, hkept hfile₁ ?_ _ _ rfl⟩
      rw [cleanCorruptedHtmlCache, bind_returned hstart]
      exact bind_returned hcache
    | true =>
      rw [hfound] at hcache
      cases hanswer' : sys.succeeds m₁.world.calls with
      | false =>
        rw [hanswer'] at hstate
        refine ⟨⟨true, some true, none, true⟩, ⟨true, 0⟩, hkept hfile₂ ?_ _ _ rfl⟩
        rw [cleanCorruptedHtmlCache, bind_returned hstart]
        exact (bind_returned hcache).trans (bind_thrown hstate)
      | true =>
        rw [hanswer', if_pos rfl, hthere] at hstate
        let m₃ : Machine := { m₂ with world := { m₂.world with calls := m₂.world.calls + 1 } }
        have hcall : onMachine call sys m₂ = (some (sys.succeeds m₂.world.calls), m₃) := rfl
        have hfile₃ : m₃.contents (localStateFile localAppData) = some content := hfile₂
        cases hopened : sys.succeeds m₂.world.calls with
        | false =>
          refine ⟨⟨true, some true, some true, false⟩, ⟨true, 0⟩, hkept hfile₃ ?_ _ _ rfl⟩
          rw [cleanCorruptedHtmlCache, bind_returned hstart]
          refine (bind_returned hcache).trans ((bind_returned hstate).trans ?_)
          simp [bind, pure, hcall, hopened, view]
        | true =>
          rw [hopened] at hcall
          by_cases hdirty : ∃ new, inspect content = .dirty new
          · obtain ⟨new, hnew⟩ := hdirty
            obtain ⟨out, hleaves⟩ := @writeContent_removeCaches_leaves sys m₃ localAppData content hfile₃ new
            refine ⟨⟨true, some true, some true, true⟩, out, ?_⟩
            have hended : Healing.cleanCorruptedHtmlCache ⟨true, some true, some true, true⟩ out content =
                writeFile out content new := by
              simp [Healing.cleanCorruptedHtmlCache, hnew]
            rw [hended, cleanCorruptedHtmlCache, bind_returned hstart]
            convert hleaves using 1
            refine (bind_returned hcache).trans ((bind_returned hstate).trans ?_)
            simp [bind, hcall, view, hfile₃, hnew]
          · refine ⟨⟨true, some true, some true, true⟩, ⟨true, 0⟩, hkept (r := some false) hfile₃ ?_ _ _ ?_⟩
            · rw [cleanCorruptedHtmlCache, bind_returned hstart]
              refine (bind_returned hcache).trans ((bind_returned hstate).trans ?_)
              cases hinspect : inspect content with
              | dirty new => exact absurd ⟨new, hinspect⟩ hdirty
              | thrown => simp [bind, pure, hcall, view, hfile₃, hinspect]
              | clean => simp [bind, pure, hcall, view, hfile₃, hinspect]
            · cases hinspect : inspect content with
              | dirty new => exact absurd ⟨new, hinspect⟩ hdirty
              | thrown => simp [Healing.cleanCorruptedHtmlCache, hinspect]
              | clean => simp [Healing.cleanCorruptedHtmlCache, hinspect]

end Disping.Healing.Steam
