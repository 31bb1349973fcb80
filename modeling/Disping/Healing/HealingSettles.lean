import Disping.Healing.HealingRepairs
import Disping.Healing.LocalState

/-! # One healing is enough

The repairs of a healing do not spoil one another, so the first healing leaves a machine on which there
is nothing left to do for the next.
-/
namespace Disping.Healing.Steam

open Hive Host Text Transition

variable {sys : System} {h h' : Held}

/-! The repairs are sound and spare one another. -/

/-- The healing can mend the file, and has to do it only once. -/
structure Ready (h : Held) : Prop where
  user : ∀ c ∈ h.autoUser, wordChar c = true
  vdf : ∀ content, h.contents (vdfFile h.steamPath) = some content →
    RepairsOnce ⟨true, true⟩ h.autoLoginUser content

theorem Ready.of_sameReader (hready : Ready h) (hreader : SameReader h h')
    (hvdf : ∀ content, h'.contents (vdfFile h.steamPath) = some content →
      RepairsOnce ⟨true, true⟩ h.autoLoginUser content) : Ready h' := by
  constructor
  · rw [hreader.autoUser]
    exact hready.user
  · rw [hreader.autoLoginUser, hreader.steamPath]
    exact hvdf

theorem getLast?_append_ne_nil {a b : List Char} (hb : b ≠ []) : (a ++ b).getLast? = b.getLast? := by
  rw [List.getLast?_append, List.getLast?_eq_some_getLast hb, Option.some_or]

theorem last_crashFile (sPath : String) : (crashFile sPath).toList.getLast? = some 'h' := by
  rw [crashFile, String.toList_append, getLast?_append_ne_nil (by decide)]
  rfl

theorem last_vdfFile (sPath : String) : (vdfFile sPath).toList.getLast? = some 'f' := by
  rw [vdfFile, String.toList_append, getLast?_append_ne_nil (by decide)]
  rfl

theorem last_localStateFile (localAppData : String) :
    (localStateFile localAppData).toList.getLast? = some 'e' := by
  unfold localStateFile
  generalize htmlCache localAppData = folder
  unfold joined
  split
  · rfl
  · split <;> rw [String.toList_append, getLast?_append_ne_nil (by decide)] <;> rfl

theorem crashFile_ne_vdfFile (p q : String) : crashFile p ≠ vdfFile q := by
  intro h
  have hlast := last_crashFile p
  rw [h, last_vdfFile] at hlast
  cases hlast

theorem crashFile_ne_localStateFile (p q : String) : crashFile p ≠ localStateFile q := by
  intro h
  have hlast := last_crashFile p
  rw [h, last_localStateFile] at hlast
  cases hlast

theorem vdfFile_ne_localStateFile (p q : String) : vdfFile p ≠ localStateFile q := by
  intro h
  have hlast := last_vdfFile p
  rw [h, last_localStateFile] at hlast
  cases hlast

theorem Held.setContent_of_ne {name other : String} (hne : other ≠ name) (x : Option (List Char)) :
    (h.setContent name x).contents other = h.contents other := Function.update_of_ne hne ..

/-- The cleaning writes one file and removes others. -/
theorem Held.cleaned_contents {localAppData name : String} (hne : name ≠ localStateFile localAppData) :
    (h.cleaned localAppData).contents name = h.contents name ∨
      (h.cleaned localAppData).contents name = none := by
  unfold Held.cleaned
  split
  · split
    · dsimp only [Held.withoutCaches]
      split
      · exact .inr rfl
      · exact .inl (Held.setContent_of_ne hne _)
    · exact .inl rfl
  · exact .inl rfl

theorem sameReader_cleanCache (sys : System) (h : Held) : SameReader h ((cleanCache sys).act h) := by
  dsimp only [cleanCache]
  split
  · exact SameReader.of_registries rfl rfl
  · unfold Held.cleaned
    split
    · split <;> exact SameReader.of_registries (by simp) (by simp)
    · exact SameReader.of_registries rfl rfl

theorem cleanCache_contents (sys : System) {name : String} (hne : ∀ p, name ≠ localStateFile p) :
    ((cleanCache sys).act h).contents name = h.contents name ∨
      ((cleanCache sys).act h).contents name = none := by
  dsimp only [cleanCache]
  split
  · exact .inl rfl
  · exact Held.cleaned_contents (hne _)

theorem mendUsers_contents {name : String} (hne : ∀ p, name ≠ vdfFile p) :
    (mendUsers.act h).contents name = h.contents name := by
  dsimp only [mendUsers]
  split
  · rfl
  · split
    · rfl
    · exact Held.setContent_of_ne (hne _) _

theorem sameReader_mendUsers (h : Held) : SameReader h (mendUsers.act h) := by
  dsimp only [mendUsers]
  split
  · exact SameReader.of_registries rfl rfl
  · split <;> exact SameReader.of_registries rfl rfl

theorem unlock_contents {name : String} (hne : ∀ p, name ≠ crashFile p) :
    (unlock.act h).contents name = h.contents name := by
  dsimp only [unlock]
  split
  · rfl
  · exact Held.setContent_of_ne (hne _) _

theorem resetPid_contents (sys : System) (h : Held) : ((resetPid sys).act h).contents = h.contents := by
  dsimp only [resetPid]
  split <;> rfl

theorem remember_contents (h : Held) : (remember.act h).contents = h.contents := by
  dsimp only [remember]

theorem unlock_sound : unlock.Sound Ready where
  keeps h hready := hready.of_sameReader (sameReader_unlock h) fun content hcontent => by
    rw [unlock_contents fun p => Ne.symm (crashFile_ne_vdfFile p _)] at hcontent
    exact hready.vdf content hcontent
  reaches h _ hpath := by
    rw [(sameReader_unlock h).steamPath] at hpath ⊢
    dsimp only [unlock]
    rw [if_neg hpath]
    exact Function.update_self ..
  rests h _ hgoal := by
    dsimp only [unlock]
    split
    · rfl
    · rename_i hpath
      unfold Held.setContent
      rw [← hgoal hpath, Function.update_eq_self]

theorem pid_apply (h : Held) : Held.pid
    { h with currentUser := h.currentUser.apply ⟨activeProcessKey, "pid", regDword 0⟩ } = some 0 := by
  rw [Held.pid, Registry.find_apply]
  decide

theorem stale_apply (sys : System) (h : Held) : Held.stale
    { h with currentUser := h.currentUser.apply ⟨activeProcessKey, "pid", regDword 0⟩ } sys = false := by
  rw [Held.stale, pid_apply]
  rfl

theorem resetPid_sound (sys : System) : (resetPid sys).Sound Ready where
  keeps h hready := hready.of_sameReader (sameReader_resetPid sys h) fun content hcontent => by
    rw [resetPid_contents] at hcontent
    exact hready.vdf content hcontent
  reaches h _ := by
    dsimp only [resetPid]
    split
    · exact stale_apply sys h
    · rename_i hstale
      exact Bool.eq_false_of_not_eq_true hstale
  rests h _ hgoal := by
    dsimp only [resetPid] at hgoal ⊢
    rw [hgoal, if_neg Bool.false_ne_true]

theorem remember_sound : remember.Sound Ready where
  keeps h hready := hready.of_sameReader (sameReader_remember h) fun content hcontent => by
    rw [remember_contents] at hcontent
    exact hready.vdf content hcontent
  reaches h _ := by
    dsimp only [remember]
    exact fun w hw => h.currentUser.values_applyAll_of_mem loginWrites_nodup hw
  rests h _ hgoal := by
    dsimp only [remember] at hgoal ⊢
    rw [h.currentUser.applyAll_of_held hgoal]

/-- The file of the accounts, before or after the mending. -/
theorem mendUsers_vdf (hpath : h.steamPath ≠ "") {new : List Char}
    (hnew : (mendUsers.act h).contents (vdfFile h.steamPath) = some new) :
    ∃ content, h.contents (vdfFile h.steamPath) = some content ∧ mended h.autoLoginUser content = new := by
  dsimp only [mendUsers] at hnew
  rw [if_neg hpath] at hnew
  cases hcontent : h.contents (vdfFile h.steamPath) with
  | none =>
    rw [hcontent] at hnew
    dsimp only at hnew
    rw [hcontent] at hnew
    cases hnew
  | some content =>
    rw [hcontent] at hnew
    dsimp only [Held.setContent] at hnew
    rw [Function.update_self] at hnew
    exact ⟨content, rfl, Option.some.inj hnew⟩

theorem mendUsers_sound : mendUsers.Sound Ready where
  keeps h hready := hready.of_sameReader (sameReader_mendUsers h) fun new hnew => by
    by_cases hpath : h.steamPath = ""
    · dsimp only [mendUsers] at hnew
      rw [if_pos hpath] at hnew
      exact hready.vdf new hnew
    · obtain ⟨content, hcontent, rfl⟩ := mendUsers_vdf hpath hnew
      have hagain :
          mended h.autoLoginUser (mended h.autoLoginUser content) = mended h.autoLoginUser content :=
        hready.vdf content hcontent
      have honce := congrArg (mended h.autoLoginUser) hagain
      exact honce
  reaches h hready hpath new hnew := by
    rw [(sameReader_mendUsers h).steamPath] at hpath hnew
    rw [(sameReader_mendUsers h).autoLoginUser]
    obtain ⟨content, hcontent, rfl⟩ := mendUsers_vdf hpath hnew
    exact hready.vdf content hcontent
  rests h _ hgoal := by
    dsimp only [mendUsers]
    split
    · rfl
    · rename_i hpath
      split
      · rfl
      · rename_i content hcontent
        unfold Held.setContent
        rw [hgoal hpath content hcontent, ← hcontent, Function.update_eq_self]

/-- A cleaned state is clean. -/
theorem inspect_of_dirty {content new : List Char} (h : inspect content = .dirty new) :
    inspect new = .clean := by
  have hrange : ∀ key ∈ counterKeys, InRange key content := by
    intro key hkey
    by_contra hout
    rw [inspect_thrown hkey hout] at h
    cases h
  by_cases hdue : ∃ key ∈ counterKeys, Due key content
  · rw [(inspect_inRange hrange).1 hdue] at h
    cases h
    exact inspect_zeroed (fun _ _ => gap_nil) (withZeros_zeroed content)
  · rw [(inspect_inRange hrange).2 fun key hkey hkeydue => hdue ⟨key, hkey, hkeydue⟩] at h
    cases h

theorem Held.cleaned_cases (h : Held) (localAppData : String) : h.cleaned localAppData = h ∨
    ∃ content new, h.contents (localStateFile localAppData) = some content ∧ inspect content = .dirty new ∧
      h.cleaned localAppData =
        (h.setContent (localStateFile localAppData) (some new)).withoutCaches localAppData cacheFolders := by
  unfold Held.cleaned
  split
  · split
    · rename_i new hnew
      obtain ⟨content, hcontent, hdirty⟩ := Option.map_eq_some_iff.mp hnew
      exact .inr ⟨content, new, hcontent, hdirty, rfl⟩
    · exact .inl rfl
  · exact .inl rfl

theorem Held.cleaned_cleaned (h : Held) (localAppData : String) :
    (h.cleaned localAppData).cleaned localAppData = h.cleaned localAppData := by
  rcases h.cleaned_cases localAppData with hsame | ⟨content, new, hcontent, hdirty, hcleaned⟩
  · rw [hsame, hsame]
  · rw [hcleaned]
    generalize hX : (h.setContent (localStateFile localAppData) (some new)).withoutCaches localAppData
      cacheFolders = cleaned
    rcases cleaned.cleaned_cases localAppData with hsame | ⟨content', new', hcontent', hdirty', -⟩
    · exact hsame
    · -- what is left of the file, if anything, is what was written
      subst hX
      dsimp only [Held.withoutCaches, Held.setContent] at hcontent'
      rw [Function.update_self] at hcontent'
      split at hcontent'
      · cases hcontent'
      · cases hcontent'
        rw [inspect_of_dirty hdirty] at hdirty'
        cases hdirty'

theorem cleanCache_sound (sys : System) : (cleanCache sys).Sound Ready where
  keeps h hready := hready.of_sameReader (sameReader_cleanCache sys h) fun content hcontent => by
    rcases cleanCache_contents sys fun p => vdfFile_ne_localStateFile h.steamPath p with hsame | hnone
    · rw [hsame] at hcontent
      exact hready.vdf content hcontent
    · rw [hnone] at hcontent
      cases hcontent
  reaches h _ localAppData hdata := by
    dsimp only [cleanCache]
    rw [hdata]
    exact h.cleaned_cleaned localAppData
  rests h _ hgoal := by
    dsimp only [cleanCache] at hgoal ⊢
    split
    · rfl
    · exact hgoal _ (by assumption)

theorem healingRepairs_sound (sys : System) : ∀ f ∈ healingRepairs sys, f.Sound Ready := by
  simp only [healingRepairs, List.forall_mem_cons, List.not_mem_nil, false_implies, implies_true, and_true]
  exact ⟨unlock_sound, resetPid_sound sys, remember_sound, mendUsers_sound, cleanCache_sound sys⟩

theorem unlock_sparedBy {g : Repair Held} (hreader : ∀ h, SameReader h (g.act h))
    (hcontents : ∀ h p, (g.act h).contents (crashFile p) = h.contents (crashFile p) ∨
      (g.act h).contents (crashFile p) = none) : unlock.SparedBy Ready g := by
  intro h _ hgoal hpath
  rw [(hreader h).steamPath] at hpath ⊢
  rcases hcontents h h.steamPath with hsame | hnone
  · rw [hsame]
    exact hgoal hpath
  · exact hnone

theorem resetPid_sparedBy (sys : System) {g : Repair Held} (hpid : ∀ h, (g.act h).pid = h.pid) :
    (resetPid sys).SparedBy Ready g := by
  intro h _ hgoal
  dsimp only [resetPid, Held.stale] at hgoal ⊢
  rw [hpid h]
  exact hgoal

theorem remember_sparedBy {g : Repair Held} (huser : ∀ h, (g.act h).currentUser = h.currentUser) :
    remember.SparedBy Ready g := by
  intro h _ hgoal
  dsimp only [remember] at hgoal ⊢
  rw [huser h]
  exact hgoal

theorem mendUsers_sparedBy_cleanCache (sys : System) : mendUsers.SparedBy Ready (cleanCache sys) := by
  intro h _ hgoal hpath content hcontent
  have hreader := sameReader_cleanCache sys h
  rw [hreader.steamPath] at hpath hcontent
  rw [hreader.autoLoginUser]
  rcases cleanCache_contents sys fun p => vdfFile_ne_localStateFile h.steamPath p with hsame | hnone
  · rw [hsame] at hcontent
    exact hgoal hpath content hcontent
  · rw [hnone] at hcontent
    cases hcontent

theorem remember_pid (h : Held) : (remember.act h).pid = h.pid := by
  have hfind : (h.currentUser.applyAll loginWrites).find activeProcessKey "pid" =
      h.currentUser.find activeProcessKey "pid" := h.currentUser.values_applyAll_of_ne loginWrites_beside
  dsimp only [remember, Held.pid]
  rw [hfind]

theorem mendUsers_currentUser (h : Held) : (mendUsers.act h).currentUser = h.currentUser := by
  dsimp only [mendUsers]
  split
  · rfl
  · split
    · rfl
    · exact Held.setContent_currentUser ..

theorem cleanCache_currentUser (sys : System) (h : Held) :
    ((cleanCache sys).act h).currentUser = h.currentUser := by
  dsimp only [cleanCache]
  split
  · rfl
  · rename_i localAppData _
    rcases h.cleaned_cases localAppData with hsame | ⟨content, new, -, -, hcleaned⟩
    · rw [hsame]
    · rw [hcleaned, Held.withoutCaches_currentUser, Held.setContent_currentUser]

theorem healingRepairs_spared (sys : System) : (healingRepairs sys).Pairwise (Repair.SparedBy Ready) := by
  have hpid : ∀ h h' : Held, h'.currentUser = h.currentUser → h'.pid = h.pid := by
    intro h h' huser
    rw [Held.pid, huser]
    rfl
  have hmend := mendUsers_currentUser
  have hclean := cleanCache_currentUser sys
  simp only [healingRepairs, List.pairwise_cons, List.forall_mem_cons, List.not_mem_nil, false_implies,
    implies_true, and_true, List.Pairwise.nil]
  refine ⟨⟨?_, ?_, ?_, ?_⟩, ⟨?_, ?_, ?_⟩, ⟨?_, ?_⟩, ?_⟩
  · exact unlock_sparedBy (sameReader_resetPid sys) fun h p => .inl (by rw [resetPid_contents])
  · exact unlock_sparedBy sameReader_remember fun h p => .inl (by rw [remember_contents])
  · exact unlock_sparedBy sameReader_mendUsers fun h p =>
      .inl (mendUsers_contents (crashFile_ne_vdfFile p))
  · exact unlock_sparedBy (sameReader_cleanCache sys) fun h p =>
      cleanCache_contents sys (crashFile_ne_localStateFile p)
  · exact resetPid_sparedBy sys remember_pid
  · exact resetPid_sparedBy sys fun h => hpid h _ (hmend h)
  · exact resetPid_sparedBy sys fun h => hpid h _ (hclean h)
  · exact remember_sparedBy hmend
  · exact remember_sparedBy hclean
  · exact mendUsers_sparedBy_cleanCache sys

/-! Healing again. -/

/-- A machine on which the healing has nothing left to do. -/
structure Healthy (sys : System) (h : Held) : Prop where
  unlocked : h.steamPath ≠ "" → h.contents (crashFile h.steamPath) = none
  pid : h.stale sys = false
  login : ∀ w ∈ loginWrites, h.currentUser.values w.location = some w.value
  users : h.steamPath ≠ "" → ∀ content, h.contents (vdfFile h.steamPath) = some content →
    mended h.autoLoginUser content = content
  cache : ∀ localAppData, sys.localAppData = some localAppData → h.cleaned localAppData = h

theorem healthy_of_goals (hgoals : ∀ f ∈ healingRepairs sys, f.goal h) : Healthy sys h := by
  simp only [healingRepairs, List.forall_mem_cons, List.not_mem_nil, false_implies, implies_true,
    and_true] at hgoals
  obtain ⟨hunlock, hpid, hlogin, husers, hcache⟩ := hgoals
  exact ⟨hunlock, hpid, hlogin, husers, hcache⟩

theorem healed_held (ok : sys.toEnvironment.AllSucceed) (steady : Steady sys) {m : Machine}
    (hready : Ready m.held) : (∃ r, (healSteamAndGames sys m).1 = some r) ∧
      (healed sys m).held = repairAll (healingRepairs sys) m.held := by
  obtain ⟨r, hr⟩ := ends_healSteamAndGames ok steady hready.user
  obtain ⟨hresult, hheld⟩ := hr m rfl
  exact ⟨⟨r, hresult⟩, hheld⟩

theorem ready_iterate (ok : sys.toEnvironment.AllSucceed) (steady : Steady sys) {m : Machine}
    (hready : Ready m.held) (n : ℕ) : Ready ((healed sys)^[n] m).held ∧
      ((healed sys)^[n] m).held = (repairAll (healingRepairs sys))^[n] m.held := by
  induction n with
  | zero => exact ⟨hready, rfl⟩
  | succ n ih =>
    obtain ⟨hnow, hheld⟩ := ih
    obtain ⟨-, hnext⟩ := healed_held ok steady hnow
    rw [Function.iterate_succ_apply', Function.iterate_succ_apply', ← hheld, hnext]
    exact ⟨repairAll_keeps (healingRepairs_sound sys) hnow, rfl⟩

/-- With all calls succeeding, while the processes stay: no healing is ended by an exception, and the first
one leaves a healthy machine that all others leave as it is. -/
theorem healings_settle (ok : sys.toEnvironment.AllSucceed) (steady : Steady sys) {m : Machine}
    (huser : ∀ c ∈ m.held.autoUser, wordChar c = true)
    (hvdf : ∀ content, m.contents (vdfFile m.held.steamPath) = some content →
      Repeats ⟨true, true⟩ m.held.autoUser content) (n : ℕ) :
    (∃ r, (healSteamAndGames sys ((healed sys)^[n] m)).1 = some r) ∧ Healthy sys (healed sys m).held ∧
      ((healed sys)^[n + 1] m).held = (healed sys m).held := by
  have hready : Ready m.held :=
    ⟨huser, fun content hcontent => repairsOnce_of_repeats _ huser (hvdf content hcontent)⟩
  have hsound := healingRepairs_sound sys
  have hspared := healingRepairs_spared sys
  have hfirst := (healed_held ok steady hready).2
  refine ⟨(healed_held ok steady (ready_iterate ok steady hready n).1).1, ?_, ?_⟩
  · rw [hfirst]
    exact healthy_of_goals (goals_repairAll hsound hspared hready)
  · rw [(ready_iterate ok steady hready (n + 1)).2, hfirst]
    exact iterate_repairAll hsound hspared hready n

/-- A system whose calls succeed and that knows no process. -/
def quietSystem : System where
  toEnvironment := registryWorks
  localAppData := some "C:\\Local"
  process _ _ := ⟨true, false, none, none, true⟩
  reached _ := 0
  removed _ _ := false

/-- After a crash: the lock, the pid and a counter are still there, and the account that logs in by itself is
not marked as the last one. -/
def crashedSteam : Machine where
  world := emptyMachine
  currentUser := Registry.empty.applyAll
    [⟨activeProcessKey, "pid", regDword 1234⟩, ⟨steamKey, "AutoLoginUser", nameValue "bob".toList⟩]
  contents name :=
    if name = crashFile standardPath then some []
    else if name = vdfFile standardPath then some twiceText
    else if name = localStateFile "C:\\Local" then some (localState streakKey ['7'])
    else none
  folders name := name = htmlCache "C:\\Local"

theorem healings_settle_crashed :
    (∃ r, (healSteamAndGames quietSystem ((healed quietSystem)^[2] crashedSteam)).1 = some r) ∧
      Healthy quietSystem (healed quietSystem crashedSteam).held ∧
      ((healed quietSystem)^[3] crashedSteam).held = (healed quietSystem crashedSteam).held := by
  have hbob : crashedSteam.held.autoUser = "bob".toList := by decide
  have hpath : crashedSteam.held.steamPath = standardPath := by decide
  have hvdf : crashedSteam.contents (vdfFile standardPath) = some twiceText := by
    have hne : vdfFile standardPath ≠ crashFile standardPath := Ne.symm (crashFile_ne_vdfFile _ _)
    dsimp only [crashedSteam]
    rw [if_neg hne, if_pos rfl]
  refine healings_settle (fun _ => rfl) (fun _ _ => rfl) ?_ (fun content hcontent => ?_) 2
  · rw [hbob]
    exact List.all_eq_true.mp rfl
  · rw [hpath, hvdf] at hcontent
    obtain rfl := Option.some.inj hcontent
    rw [hbob]
    exact fun _ _ _ => repeatable_twice

end Disping.Healing.Steam
