import Disping.Hive.Deleting
import Disping.Tweaks.Tables
import Disping.Rollback.BackupManager

/-! # What the restore leaves

With administrator rights and every call succeeding, the restore sets the two profile values,
takes three values out of every interface key and deletes the policies without subkeys.
-/
namespace Disping.Rollback

open Hive Host Tweaks

variable {env : Environment}

/-- Values taken away, with keys, netsh settings and files as they were. -/
structure Cleared (w w' : World) (gone : Location → Bool) : Prop where
  keys : w'.registry.keys = w.registry.keys
  values : w'.registry.values = Registry.without w.registry.values gone
  netsh : w'.netsh = w.netsh

theorem Cleared.trans {w w' w'' : World} {gone gone' : Location → Bool} (h : Cleared w w' gone)
    (h' : Cleared w' w'' gone') : Cleared w w'' fun loc => gone loc || gone' loc where
  keys := h'.keys.trans h.keys
  values := by rw [h'.values, h.values, Registry.without_without]
  netsh := h'.netsh.trans h.netsh

theorem deleteValue_cleared (ok : env.AllSucceed) (key name : String) (w : World) :
    Cleared w (deleteValue key name env w).2 fun loc => loc = (path key, fold name) := by
  unfold deleteValue
  rw [bind_run, regOpenKeyEx_run ok]
  by_cases hkey : w.registry.HasKey (path key)
  · cases hv : w.registry.find key name with
    | none =>
      have hgone : ∀ loc : Location, decide (loc = (path key, fold name)) = true →
          w.registry.values loc = none := by
        intro loc hloc
        rw [of_decide_eq_true hloc]
        exact hv
      simp [hkey, regDeleteValue, call_run ok, hv]
      exact ⟨rfl, (Registry.without_of_none hgone).symm, rfl⟩
    | some v =>
      simp [hkey, regDeleteValue, call_run ok, hv]
      exact ⟨rfl, Registry.values_deleteValue _ _ _, rfl⟩
  · have hgone : ∀ loc : Location, decide (loc = (path key, fold name)) = true →
        w.registry.values loc = none := by
      intro loc hloc
      rw [of_decide_eq_true hloc]
      exact w.registry.values_of_not_hasKey hkey
    simp [hkey]
    exact ⟨rfl, (Registry.without_of_none hgone).symm, rfl⟩

/-- A loop of deletions. -/
theorem forEach_cleared {α β : Type} {f : α → Win β} {gone : α → Location → Bool} (as : List α)
    (h : ∀ a w, Cleared w (f a env w).2 (gone a)) (w : World) :
    Cleared w (forEach f as env w).2 fun loc => as.any fun a => gone a loc := by
  induction as generalizing w with
  | nil => exact ⟨rfl, rfl, rfl⟩
  | cons a as ih =>
    have hrun := (h a w).trans (ih (f a env w).2)
    simpa [forEach] using hrun

/-- Keys below `root` taken away, with the names below other keys as they were. -/
structure Removed (root : Path) (w w' : World) (gone : Location → Bool) : Prop where
  subKeys : ∀ q, q ≠ root → w'.registry.subKeys q = w.registry.subKeys q
  values : w'.registry.values = Registry.without w.registry.values gone
  netsh : w'.netsh = w.netsh

/-- The locations that deleting the key `n` below `root` empties. -/
def emptied (r : Registry) (root : Path) (n : KeyName) (loc : Location) : Bool :=
  decide (loc.1 = root ++ [n.folded] ∧ r.subKeys loc.1 = [])

theorem regDeleteKey_removed (ok : env.AllSucceed) (root : String) (n : KeyName) (w : World) :
    Removed (path root) w (regDeleteKey (root ++ "\\" ++ n.text) env w).2
      (emptied w.registry (path root) n) := by
  have hp : path (root ++ "\\" ++ n.text) = path root ++ [n.folded] := path_entry root n
  by_cases hdel : w.registry.HasKey (path root ++ [n.folded]) ∧
      w.registry.subKeys (path root ++ [n.folded]) = []
  · have hrun : (regDeleteKey (root ++ "\\" ++ n.text) env w).2 =
        { w with
          registry := w.registry.deleteKey (path root ++ [n.folded])
          calls := w.calls + 1 } := by
      simp [regDeleteKey, call_run ok, hp, hdel]
    rw [hrun]
    refine ⟨fun q hq => Registry.subKeys_deleteKey _ n.folded rfl q hq, ?_, rfl⟩
    rw [Registry.values_deleteKey _ hdel.2]
    congr 1
    funext loc
    unfold emptied
    by_cases hloc : loc.1 = path root ++ [n.folded]
    · simp [hloc, hdel.2]
    · simp [hloc]
  · have hrun : (regDeleteKey (root ++ "\\" ++ n.text) env w).2 =
        { w with calls := w.calls + 1 } := by
      simp [regDeleteKey, call_run ok, hp, hdel]
    rw [hrun]
    refine ⟨fun _ _ => rfl, (Registry.without_of_none fun loc hloc => ?_).symm, rfl⟩
    obtain ⟨heq, hempty⟩ := of_decide_eq_true hloc
    refine w.registry.values_of_not_hasKey fun hkey => hdel ?_
    rw [heq] at hkey hempty
    exact ⟨hkey, hempty⟩

theorem regDeleteKey_loop (ok : env.AllSucceed) (root : String) (ns : List KeyName) (w : World) :
    Removed (path root) w
      (forEach (fun sk => regDeleteKey (root ++ "\\" ++ sk)) (ns.map KeyName.text) env w).2
      fun loc => ns.any fun n => emptied w.registry (path root) n loc := by
  induction ns generalizing w with
  | nil => exact ⟨fun _ _ => rfl, rfl, rfl⟩
  | cons n ns ih =>
    have hfirst := regDeleteKey_removed ok root n w
    have hrest := ih (regDeleteKey (root ++ "\\" ++ n.text) env w).2
    have hsame : ∀ m loc, emptied (regDeleteKey (root ++ "\\" ++ n.text) env w).2.registry
        (path root) m loc = emptied w.registry (path root) m loc := by
      intro m loc
      unfold emptied
      by_cases hloc : loc.1 = path root ++ [m.folded]
      · have hne : loc.1 ≠ path root := by
          rw [hloc]
          intro heq
          simpa using congrArg List.length heq
        rw [hfirst.subKeys _ hne]
      · simp [hloc]
    refine ⟨fun q hq => ?_, ?_, ?_⟩
    · exact (hrest.subKeys q hq).trans (hfirst.subKeys q hq)
    · have hvalues := hrest.values
      rw [hfirst.values, Registry.without_without] at hvalues
      simp only [hsame] at hvalues
      exact hvalues
    · exact hrest.netsh.trans hfirst.netsh

/-- The interface values the restore takes away. -/
def interfaceReset (r : Registry) (loc : Location) : Bool :=
  (interfaceKeys r).any fun key => interfaceValues.any fun name => loc = (path key, fold name)

/-- The values that go with the policies the restore deletes. -/
def policyRemoved (r : Registry) (loc : Location) : Bool :=
  ((r.subKeys (path qosRoot)).filter fun n => isGamingPolicy n.text).any fun n =>
    emptied r (path qosRoot) n loc

/-- The bindings of the two profile values. -/
def profileReset : List (Location × RegValue) :=
  (profileDefaults.map (Setting.write profileKey)).map Registry.Write.binding

def restoredValues (r : Registry) : Location → Option RegValue :=
  Registry.without (overlay r.values profileReset) fun loc =>
    interfaceReset r loc || policyRemoved r loc

theorem interfaceReset_cleared (ok : env.AllSucceed) (guids : List KeyName) (w : World) :
    Cleared w (forEach (fun guid => forEach (deleteValue (interfaceKey guid)) interfaceValues)
        (guids.map KeyName.text) env w).2
      fun loc => ((guids.map KeyName.text).map interfaceKey).any fun key =>
        interfaceValues.any fun name => loc = (path key, fold name) := by
  have hloop := forEach_cleared (guids.map KeyName.text)
    (fun guid => forEach_cleared interfaceValues fun name =>
      deleteValue_cleared ok (interfaceKey guid) name) w
  simpa [List.any_map, Function.comp_def] using hloop

/-- The removal is a loop over the names with the prefix. -/
theorem removeGamingQoSPolicies_loop (ok : env.AllSucceed) (w : World) :
    (removeGamingQoSPolicies env w).2 =
      (forEach (fun sk => regDeleteKey (qosRoot ++ "\\" ++ sk))
        (((w.registry.subKeys (path qosRoot)).filter fun n => isGamingPolicy n.text).map KeyName.text)
        env (enumerateSubKeys qosRoot env w).2).2 := by
  obtain ⟨hnames, -⟩ := enumerateSubKeys_run ok qosRoot w
  have hfilter : ((w.registry.subKeys (path qosRoot)).map KeyName.text).filter isGamingPolicy =
      ((w.registry.subKeys (path qosRoot)).filter fun n => isGamingPolicy n.text).map
        KeyName.text := by
    rw [List.filter_map]
    rfl
  simp only [removeGamingQoSPolicies, bind_run, pure_run, hnames, hfilter]

theorem removeGamingQoSPolicies_removed (ok : env.AllSucceed) (w : World) :
    Removed (path qosRoot) w (removeGamingQoSPolicies env w).2 (policyRemoved w.registry) := by
  obtain ⟨-, hquiet⟩ := enumerateSubKeys_run ok qosRoot w
  have hloop := regDeleteKey_loop ok qosRoot
    ((w.registry.subKeys (path qosRoot)).filter fun n => isGamingPolicy n.text)
    (enumerateSubKeys qosRoot env w).2
  rw [removeGamingQoSPolicies_loop ok]
  rw [hquiet] at hloop ⊢
  exact ⟨hloop.subKeys, hloop.values, hloop.netsh⟩

/-- Both lists of keys the restore goes through lie beside the profile key. -/
theorem profileKey_beside : ¬ path interfacesKey <+: path profileKey ∧
    ¬ path rootClass <+: path profileKey ∧ ¬ path qosRoot <+: path profileKey := by
  simp (disch := exact rfl) only [interfacesKey, rootClass, qosRoot, profileKey, path_literal]
  decide

theorem netshDefaults_netsh : ∀ cmd ∈ netshDefaults,
    (netshAssignment (command cmd)).isSome := by
  simp (disch := exact rfl) only [netshDefaults, List.forall_mem_cons, command_literal]
  decide

theorem policyRemoved_congr {r r' : Registry}
    (h : ∀ q, path qosRoot <+: q → r'.subKeys q = r.subKeys q) :
    policyRemoved r' = policyRemoved r := by
  funext loc
  have hemptied : ∀ n, emptied r' (path qosRoot) n loc = emptied r (path qosRoot) n loc := by
    intro n
    unfold emptied
    by_cases hloc : loc.1 = path qosRoot ++ [n.folded]
    · rw [h loc.1 (hloc ▸ List.prefix_append _ _)]
    · simp [hloc]
  unfold policyRemoved
  rw [h _ (List.prefix_refl _)]
  simp only [hemptied]

theorem interfaceReset_congr {r r' : Registry}
    (h : r'.subKeys (path interfacesKey) = r.subKeys (path interfacesKey)) :
    interfaceReset r' = interfaceReset r := by
  unfold interfaceReset interfaceKeys
  rw [h]

/-- Setting the profile values changes no list of keys the restore goes through. -/
theorem profile_stores (ok : env.AllSucceed) (r : Registry) :
    Stores env (fun r' => ∀ q, ¬ q <+: path profileKey → r'.subKeys q = r.subKeys q)
      (applySettings profileKey profileDefaults) (profileDefaults.map (Setting.write profileKey)) :=
  applySettings_stores ok fun s _ r' hr' q hq => by
    have haway : ¬ q <+: path (s.write profileKey).key := hq
    rw [subKeys_apply_of_not_above haway, hr' q hq]

theorem restoreFactoryDefaults_run (admin : env.admin = true) (ok : env.AllSucceed) (w : World) :
    (restoreFactoryDefaults env w).2.registry.values = restoredValues w.registry ∧
      (restoreFactoryDefaults env w).2.netsh = overlay w.netsh (netshAssignments netshDefaults) := by
  obtain ⟨hinterfaces, -, hqos⟩ := profileKey_beside
  -- the profile values
  obtain ⟨hstored, hkept⟩ := profile_stores ok w.registry w fun _ _ => rfl
  have hnetsh₁ := applySettings_netsh ok profileKey profileDefaults w
  generalize hw₁ : (applySettings profileKey profileDefaults env w).2 = w₁ at hstored hkept hnetsh₁
  have hvalues₁ : w₁.registry.values = overlay w.registry.values profileReset := by
    rw [hstored.registry, Registry.values_applyAll]
    rfl
  -- the interface values
  obtain ⟨hguids, hquiet⟩ := enumerateSubKeys_run ok interfacesKey w₁
  have hcleared := interfaceReset_cleared ok (w₁.registry.subKeys (path interfacesKey))
    (enumerateSubKeys interfacesKey env w₁).2
  generalize hw₃ : (forEach (fun guid => forEach (deleteValue (interfaceKey guid)) interfaceValues)
    ((w₁.registry.subKeys (path interfacesKey)).map KeyName.text) env
    (enumerateSubKeys interfacesKey env w₁).2).2 = w₃ at hcleared
  have hvalues₃ : w₃.registry.values =
      Registry.without w₁.registry.values (interfaceReset w₁.registry) := by
    rw [hcleared.values, hquiet.registry]
    rfl
  have hsub₃ : ∀ q, w₃.registry.subKeys q = w₁.registry.subKeys q := by
    intro q
    unfold Registry.subKeys
    rw [hcleared.keys, hquiet.registry]
  -- the policies
  have hremoved := removeGamingQoSPolicies_removed ok w₃
  generalize hw₄ : (removeGamingQoSPolicies env w₃).2 = w₄ at hremoved
  obtain ⟨hregistry, hnetsh⟩ := system_netsh ok netshDefaults_netsh w₄
  have hreset : interfaceReset w₁.registry = interfaceReset w.registry :=
    interfaceReset_congr (hkept _ hinterfaces)
  have hpolicies : policyRemoved w₃.registry = policyRemoved w.registry :=
    policyRemoved_congr fun q hq => by
      rw [hsub₃, hkept q fun hpre => hqos (hq.trans hpre)]
  simp only [restoreFactoryDefaults, asAdmin, isRunningAsAdmin, bind_run, ask_run, admin, if_true,
    pure_run, hw₁, hguids, hw₃, hw₄]
  constructor
  · rw [hregistry, hremoved.values, hvalues₃, hvalues₁, Registry.without_without, hreset, hpolicies]
    rfl
  · rw [hnetsh, hremoved.netsh, hcleared.netsh, hquiet.netsh, hnetsh₁]

end Disping.Rollback
