import Disping.Rollback.Leftovers

/-! # The rollback script against the restore

The script repeats the restore's fixed steps. It has no step for the interfaces and the policies,
which the restore finds at run time.
-/
namespace Disping.Rollback

open Hive Host Tweaks

variable {env : Environment}

/-- The lines of the script that set a profile value. -/
def scriptAdditions : List String :=
  (rollbackScript.drop 14).take 1 ++ (rollbackScript.drop 16).take 1

/-- The lines of the script that set a netsh value. -/
def scriptNetsh : List String := (rollbackScript.drop 19).take 7

open LineKind in
theorem rollbackScript_kinds : rollbackScript.map lineKind =
    [inert, inert, inert, inert, inert, inert, netSession, ifFailed, inert, inert, exit, blockEnd,
     inert, inert, command, inert, command, inert, inert, command, command, command, command,
     command, command, command, inert, inert, inert, inert, inert, inert] := by
  simp (disch := exact rfl) only [rollbackScript, List.map_cons, List.map_nil, lineKind,
    command_literal]
  decide

theorem map_pair {α β : Type} (f : α → β) (as : List α) :
    as.map (fun a => (f a, a)) = (as.map f).zip as := by
  induction as with
  | nil => rfl
  | cons a as ih => rw [List.map_cons, ih, List.map_cons, List.zip_cons_cons]

theorem runLines_commands {lines : List (LineKind × String)}
    (h : ∀ line ∈ lines, line.1 = .command ∨ line.1 = .inert) (errorlevel : ℕ) (w : World) :
    (runLines lines errorlevel false env w).2 =
      (forEach system ((lines.filter fun line => line.1 = .command).map Prod.snd) env w).2 := by
  induction lines generalizing w with
  | nil => rfl
  | cons line lines ih =>
    obtain ⟨kind, text⟩ := line
    have hrest : ∀ l ∈ lines, l.1 = .command ∨ l.1 = .inert := fun l hl => h l (by simp [hl])
    rcases h (kind, text) (by simp) with hkind | hkind
    · obtain rfl : kind = .command := hkind
      rw [List.filter_cons_of_pos rfl, List.map_cons, runLines, forEach]
      exact ih hrest (system text env w).2
    · obtain rfl : kind = .inert := hkind
      rw [List.filter_cons_of_neg (by simp), runLines]
      exact ih hrest w

theorem runLines_header (admin : env.admin = true) (w : World)
    (l₁ l₂ l₃ l₄ l₅ l₆ l₇ l₈ l₉ l₁₀ l₁₁ l₁₂ : String) (rest : List (LineKind × String)) :
    runLines ((.inert, l₁) :: (.inert, l₂) :: (.inert, l₃) :: (.inert, l₄) :: (.inert, l₅) ::
      (.inert, l₆) :: (.netSession, l₇) :: (.ifFailed, l₈) :: (.inert, l₉) :: (.inert, l₁₀) ::
      (.exit, l₁₁) :: (.blockEnd, l₁₂) :: rest) 0 false env w = runLines rest 0 false env w := by
  simp only [runLines, isRunningAsAdmin, bind_run, ask_run, admin, Bool.false_eq_true, if_false,
    if_true, decide_true]

/-- An administrator's run skips the refusal and runs the commands in order. -/
theorem rollbackScript_run (admin : env.admin = true) (w : World) :
    (runScript rollbackScript env w).2 =
      (forEach system scriptNetsh env (forEach system scriptAdditions env w).2).2 := by
  rw [runScript, map_pair, rollbackScript_kinds, rollbackScript]
  simp only [List.zip_cons_cons, List.zip_nil_left]
  rw [runLines_header admin, runLines_commands (by simp), ← forEach_append]
  rfl

/-- What the two additions write. -/
theorem scriptAdditions_writes : scriptAdditions.map (fun cmd => regAddition (command cmd)) =
    (profileDefaults.map (Setting.write profileKey)).map some := by
  simp (disch := exact rfl) only [scriptAdditions, rollbackScript, List.drop_succ_cons,
    List.drop_zero, List.take_succ_cons, List.take_zero, List.cons_append, List.nil_append,
    List.map_cons, List.map_nil, command_literal]
  rfl

theorem scriptAdditions_not_netsh : ∀ cmd ∈ scriptAdditions,
    netshAssignment (command cmd) = none := by
  simp (disch := exact rfl) only [scriptAdditions, rollbackScript, List.drop_succ_cons,
    List.drop_zero, List.take_succ_cons, List.take_zero, List.cons_append, List.nil_append,
    List.forall_mem_cons, command_literal]
  decide

/-- Script and restore give the same netsh settings. -/
theorem scriptNetsh_assignments :
    netshAssignments scriptNetsh = netshAssignments netshDefaults := by
  have hcommands : scriptNetsh.map command = netshDefaults.map command := by
    simp (disch := exact rfl) only [scriptNetsh, netshDefaults, rollbackScript,
      List.drop_succ_cons, List.drop_zero, List.take_succ_cons, List.take_zero, List.map_cons,
      List.map_nil, command_literal]
    decide
  unfold netshAssignments
  rw [← Function.comp_def, ← List.filterMap_map, hcommands, List.filterMap_map]

theorem scriptNetsh_netsh : ∀ cmd ∈ scriptNetsh, (netshAssignment (command cmd)).isSome := by
  simp (disch := exact rfl) only [scriptNetsh, rollbackScript, List.drop_succ_cons,
    List.drop_zero, List.take_succ_cons, List.take_zero, List.forall_mem_cons, command_literal]
  decide

theorem additions_run (ok : env.AllSucceed) {cmds : List String} {ws : List Registry.Write}
    (h : cmds.map (fun cmd => regAddition (command cmd)) = ws.map some)
    (hnetsh : ∀ cmd ∈ cmds, netshAssignment (command cmd) = none) (w : World) :
    (forEach system cmds env w).2.registry = w.registry.applyAll ws ∧
      (forEach system cmds env w).2.netsh = w.netsh := by
  induction cmds generalizing ws w with
  | nil =>
    obtain rfl : ws = [] := by simpa using h.symm
    exact ⟨rfl, rfl⟩
  | cons cmd cmds ih =>
    rcases ws with _ | ⟨write, ws⟩
    · simp at h
    · rw [List.map_cons, List.map_cons] at h
      obtain ⟨hfirst, hrest⟩ := List.cons.inj h
      obtain ⟨hregistry, hsame⟩ := system_reg ok hfirst (hnetsh cmd (by simp)) w
      obtain ⟨hregistry', hsame'⟩ :=
        ih hrest (fun c hc => hnetsh c (by simp [hc])) (system cmd env w).2
      simp only [forEach, bind_run, pure_run]
      rw [hregistry', hsame', hregistry, hsame]
      exact ⟨rfl, rfl⟩

/-! Script and restore side by side. -/

/-- The world after running the script that GenerateRollbackScript wrote. -/
def afterScript (env : Environment) (w : World) : World :=
  (runScript (((generateRollbackScript scriptPath env w).2.files scriptPath).getD []) env w).2

def afterRestore (env : Environment) (w : World) : World := (restoreFactoryDefaults env w).2

/-- No interface holds a value the restore takes away, and no policy it deletes holds a value. -/
structure NothingFound (r : Registry) : Prop where
  interfaces : ∀ key ∈ interfaceKeys r, ∀ name ∈ interfaceValues, r.find key name = none
  policies : ∀ n ∈ r.subKeys (path qosRoot), isGamingPolicy n.text = true →
    r.subKeys (path qosRoot ++ [n.folded]) = [] →
    ∀ name, r.find (qosRoot ++ "\\" ++ n.text) name = none

theorem afterScript_run (admin : env.admin = true) (ok : env.AllSucceed) (w : World) :
    (afterScript env w).registry.values = overlay w.registry.values profileReset ∧
      (afterScript env w).netsh = overlay w.netsh (netshAssignments netshDefaults) := by
  have hscript : ((generateRollbackScript scriptPath env w).2.files scriptPath).getD [] =
      rollbackScript := by
    simp [generateRollbackScript, writeFile, call_run ok]
  obtain ⟨hregistry, hsame⟩ := additions_run ok scriptAdditions_writes scriptAdditions_not_netsh w
  obtain ⟨hregistry', hnetsh⟩ := system_netsh ok scriptNetsh_netsh
    (forEach system scriptAdditions env w).2
  rw [afterScript, hscript, rollbackScript_run admin]
  rw [hregistry', hnetsh, hregistry, hsame, Registry.values_applyAll, scriptNetsh_assignments]
  exact ⟨rfl, rfl⟩

/-- What the restore finds at run time lies beside the profile key. -/
theorem gone_beside_profile {r : Registry} {loc : Location}
    (h : (interfaceReset r loc || policyRemoved r loc) = true) : loc.1 ≠ path profileKey := by
  obtain ⟨hinterfaces, -, hqos⟩ := profileKey_beside
  rcases (Bool.or_eq_true _ _).mp h with hreset | hremoved
  · obtain ⟨key, hkey, hnames⟩ := List.any_eq_true.mp hreset
    obtain ⟨name, -, hloc⟩ := List.any_eq_true.mp hnames
    obtain ⟨guid, -, hguid⟩ := List.mem_map.mp hkey
    have hfst : loc.1 = path key := congrArg Prod.fst (of_decide_eq_true hloc)
    have hprefix : path interfacesKey <+: path key := by
      rw [← hguid, interfaceKey, path_child]
      exact List.prefix_append _ _
    intro heq
    rw [hfst] at heq
    rw [heq] at hprefix
    exact hinterfaces hprefix
  · obtain ⟨n, -, hemptied⟩ := List.any_eq_true.mp hremoved
    have hprefix : path qosRoot <+: loc.1 := by
      rw [(of_decide_eq_true hemptied).1]
      exact List.prefix_append _ _
    intro heq
    rw [heq] at hprefix
    exact hqos hprefix

theorem overlay_profile_of_gone {r : Registry} {loc : Location}
    (h : (interfaceReset r loc || policyRemoved r loc) = true) :
    overlay r.values profileReset loc = r.values loc := by
  have hnone : lastBinding profileReset loc = none := by
    by_contra hsome
    obtain ⟨v, hv⟩ := Option.ne_none_iff_exists'.mp hsome
    obtain ⟨write, hwrite, hbinding⟩ := List.mem_map.mp (mem_of_lastBinding hv)
    obtain ⟨s, -, hs⟩ := List.mem_map.mp hwrite
    have hfst : write.location.1 = loc.1 := congrArg Prod.fst (congrArg Prod.fst hbinding)
    rw [← hs, Registry.Write.location_fst] at hfst
    exact gone_beside_profile h hfst.symm
  rw [overlay_apply, hnone, Option.none_or]

theorem values_of_gone (admin : env.admin = true) (ok : env.AllSucceed) {w : World}
    {key name : String} (h : (interfaceReset w.registry (path key, fold name) ||
      policyRemoved w.registry (path key, fold name)) = true) :
    (afterScript env w).registry.find key name = w.registry.find key name ∧
      (afterRestore env w).registry.find key name = none := by
  unfold Registry.find
  rw [afterRestore, (afterScript_run admin ok w).1, (restoreFactoryDefaults_run admin ok w).1,
    overlay_profile_of_gone h]
  exact ⟨rfl, if_pos h⟩

theorem nothingFound_of_agrees (admin : env.admin = true) (ok : env.AllSucceed) {w : World}
    (hsame : ∀ key name, (afterScript env w).registry.find key name =
      (afterRestore env w).registry.find key name) : NothingFound w.registry := by
  constructor
  · intro key hkey name hname
    have hreset : interfaceReset w.registry (path key, fold name) = true :=
      List.any_eq_true.mpr ⟨key, hkey, List.any_eq_true.mpr ⟨name, hname, decide_eq_true rfl⟩⟩
    obtain ⟨hkept, hnone⟩ := values_of_gone admin ok (by rw [hreset, Bool.true_or])
    rw [← hkept, hsame, hnone]
  · intro n hn hgaming hsub name
    have hpath := path_entry qosRoot n
    have hremoved : policyRemoved w.registry (path (qosRoot ++ "\\" ++ n.text), fold name) = true :=
      List.any_eq_true.mpr ⟨n, List.mem_filter.mpr ⟨hn, hgaming⟩,
        decide_eq_true ⟨hpath, by rw [hpath]; exact hsub⟩⟩
    obtain ⟨hkept, hnone⟩ := values_of_gone admin ok (by rw [hremoved, Bool.or_true])
    rw [← hkept, hsame, hnone]

/-- When the script does the same as the restore. -/
theorem afterScript_agrees_iff (admin : env.admin = true) (ok : env.AllSucceed) (w : World) :
    ((∀ key name, (afterScript env w).registry.find key name =
        (afterRestore env w).registry.find key name) ∧
      (afterScript env w).netsh = (afterRestore env w).netsh) ↔ NothingFound w.registry := by
  obtain ⟨hscript, hscriptNetsh⟩ := afterScript_run admin ok w
  obtain ⟨hrestore, hrestoreNetsh⟩ := restoreFactoryDefaults_run admin ok w
  constructor
  · rintro ⟨hsame, -⟩
    exact nothingFound_of_agrees admin ok hsame
  · intro h
    refine ⟨fun key name => ?_, by rw [hscriptNetsh, afterRestore, hrestoreNetsh]⟩
    by_cases hfound : (interfaceReset w.registry (path key, fold name) ||
        policyRemoved w.registry (path key, fold name)) = true
    · obtain ⟨hkept, hnone⟩ := values_of_gone admin ok hfound
      rw [hkept, hnone]
      rcases (Bool.or_eq_true _ _).mp hfound with hreset | hremoved
      · obtain ⟨k, hk, hnames⟩ := List.any_eq_true.mp hreset
        obtain ⟨x, hx, hloc⟩ := List.any_eq_true.mp hnames
        rw [Registry.find, of_decide_eq_true hloc]
        exact h.interfaces k hk x hx
      · obtain ⟨n, hn, hemptied⟩ := List.any_eq_true.mp hremoved
        obtain ⟨hmem, hgaming⟩ := List.mem_filter.mp hn
        obtain ⟨hloc, hsub⟩ := of_decide_eq_true hemptied
        have hkey : path key = path qosRoot ++ [n.folded] := hloc
        have hempty : w.registry.subKeys (path key) = [] := hsub
        have hfind := h.policies n hmem hgaming (hkey ▸ hempty) name
        rw [Registry.find, path_entry, ← hkey] at hfind
        exact hfind
    · unfold Registry.find
      rw [afterRestore, hscript, hrestore]
      exact (if_neg hfound).symm

/-- A machine without interfaces and policies. -/
theorem afterScript_agrees_empty : ((∀ key name,
    (afterScript adminEnvironment (worldWith .empty)).registry.find key name =
      (afterRestore adminEnvironment (worldWith .empty)).registry.find key name) ∧
    (afterScript adminEnvironment (worldWith .empty)).netsh =
      (afterRestore adminEnvironment (worldWith .empty)).netsh) :=
  (afterScript_agrees_iff rfl (fun _ => rfl) (worldWith .empty)).mpr
    ⟨fun _ hkey => absurd hkey List.not_mem_nil, fun _ hn => absurd hn List.not_mem_nil⟩

/-- One interface on which a value of the optimizer is set. -/
def interfaceTweaked : Registry :=
  .apply .empty ⟨interfaceKey "A", "TcpAckFrequency", regDword 1⟩

/-- The script leaves the values of the interfaces. -/
theorem not_afterScript_agrees_interface : ¬ ∀ (env : Environment) (w : World),
    env.admin = true → env.AllSucceed →
      (∀ key name, (afterScript env w).registry.find key name =
        (afterRestore env w).registry.find key name) ∧
      (afterScript env w).netsh = (afterRestore env w).netsh := by
  intro hall
  have hfound := nothingFound_of_agrees rfl (fun _ => rfl)
    (hall adminEnvironment (worldWith interfaceTweaked) rfl fun _ => rfl).1
  have hpath : path (interfaceKey "A") = path interfacesKey ++ [fold "A"] := by
    rw [interfaceKey, path_child, show path "A" = [fold "A"] by decide]
  have hkey : interfaceTweaked.HasKey (path interfacesKey ++ [fold "A"]) := by
    rw [← hpath]
    have hkeys := Registry.keys_apply .empty ⟨interfaceKey "A", "TcpAckFrequency", regDword 1⟩
    exact Registry.hasKey_of_keys_subset (by rw [interfaceTweaked, hkeys]; exact List.Subset.refl _)
      (Registry.hasKey_create .empty (interfaceKey "A"))
  obtain ⟨n, hn, hname⟩ := interfaceTweaked.exists_subKey hkey
  have hentry : path (interfaceKey n.text) = path (interfaceKey "A") := by
    rw [hpath, interfaceKey, path_entry, hname]
  have hnone := hfound.interfaces (interfaceKey n.text)
    (List.mem_map_of_mem (List.mem_map_of_mem hn)) "TcpAckFrequency" (by simp [interfaceValues])
  unfold Registry.find at hnone
  rw [hentry, worldWith, interfaceTweaked, Registry.values_apply] at hnone
  exact absurd hnone (by simp [Registry.Write.location])

end Disping.Rollback
