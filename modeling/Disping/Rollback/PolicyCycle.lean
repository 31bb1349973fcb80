import Disping.Rollback.Leftovers

/-! # Policies set up and removed again

A policy is a key right below the policy root unless its executable's name goes on after a
backslash, and it is a key of its own unless one is there whose name differs in letter case. The
removal looks at the spelling of the keys right below the root and deletes those without subkeys.
-/
namespace Disping.Rollback

open Hive Host Tweaks

variable {env : Environment} {r r' : Registry}

/-- The policy keys and all below the others are as before, but those with the prefix, which are
gone. -/
structure PoliciesRemoved (r r' : Registry) : Prop where
  gone : ∀ n ∈ r'.subKeys (path qosRoot), isGamingPolicy n.text = false
  others : ∀ n, isGamingPolicy n.text = false →
    (n ∈ r'.subKeys (path qosRoot) ↔ n ∈ r.subKeys (path qosRoot))
  inside : ∀ n ∈ r.subKeys (path qosRoot), isGamingPolicy n.text = false → ∀ q,
    path qosRoot ++ [n.folded] <+: q →
      r'.subKeys q = r.subKeys q ∧ ∀ name, r'.values (q, name) = r.values (q, name)

/-- The policy lies in a key that is spelled without the prefix. -/
def InOtherKey (r : Registry) (exe : String) : Prop :=
  ∃ n ∈ r.subKeys (path qosRoot), isGamingPolicy n.text = false ∧
    path qosRoot ++ [n.folded] <+: path (policyPath exe)

/-- When the policies of these executables can be removed. -/
structure Removable (r : Registry) (exes : List String) : Prop where
  /-- a policy from before the setup has no subkeys -/
  bare : ∀ n ∈ r.subKeys (path qosRoot), isGamingPolicy n.text = true →
    r.subKeys (path qosRoot ++ [n.folded]) = []
  /-- a policy in no other key is one key right below the root -/
  single : ∀ exe ∈ exes, ¬ InOtherKey r exe →
    (path (policyPath exe)).length = (path qosRoot).length + 1
  /-- a policy in another key has the values already that it is given last -/
  stored : ∀ exe ∈ exes, InOtherKey r exe → ∀ name v,
    lastBinding ((setupWrites exes).map Registry.Write.binding) (path (policyPath exe), name) =
      some v → r.values (path (policyPath exe), name) = some v

/-! Setting up. -/

/-- The keys a policy path names below the root; the first is spelled with the prefix. -/
theorem policyPath_components (exe : String) : ∃ (n : KeyName) (ns : List KeyName),
    isGamingPolicy n.text = true ∧ components (policyPath exe) = components qosRoot ++ n :: ns := by
  have hstart : '\\' ∉ policyPrefix.toList := by decide
  have hname : ∀ cs : List Char, '\\' ∉ cs → ∃ n : KeyName, isGamingPolicy n.text = true ∧
      keyName (policyPrefix.toList ++ cs) = some n := by
    intro cs hcs
    have hvalid : policyPrefix.toList ++ cs ≠ [] ∧ '\\' ∉ policyPrefix.toList ++ cs :=
      ⟨by simp [policyPrefix], by simp [hstart, hcs]⟩
    refine ⟨_, ?_, dif_pos hvalid⟩
    simp [isGamingPolicy]
  have hbelow : components (policyPath exe) =
      components qosRoot ++ ((policyPrefix.toList ++ exe.toList).splitOn '\\').filterMap keyName := by
    rw [policyPath, components_child, components, components, String.toList_append]
  rw [hbelow]
  by_cases hmem : '\\' ∈ exe.toList
  · obtain ⟨before, after, hsplit, hbefore⟩ := List.eq_append_cons_of_mem hmem
    obtain ⟨n, hn, hkey⟩ := hname before hbefore
    refine ⟨n, (after.splitOn '\\').filterMap keyName, hn, ?_⟩
    have hplain : '\\' ∉ policyPrefix.toList ++ before := by simp [hstart, hbefore]
    rw [hsplit, ← List.append_assoc, List.splitOn_append_cons_self, List.splitOn_eq_singleton hplain,
      List.singleton_append, List.filterMap_cons_some hkey]
  · obtain ⟨n, hn, hkey⟩ := hname exe.toList hmem
    have hplain : '\\' ∉ policyPrefix.toList ++ exe.toList := by simp [hstart, hmem]
    refine ⟨n, [], hn, ?_⟩
    rw [List.splitOn_eq_singleton hplain, List.filterMap_cons_some hkey, List.filterMap_nil]

/-- Of a setup only the policies lie below the policy root. -/
theorem setup_of_prefix {exes : List String} (hexes : exes ≠ []) {w : Registry.Write}
    (h : w ∈ setupWrites exes) (hroot : path qosRoot <+: path w.key) :
    ∃ exe ∈ exes, w.key = policyPath exe := by
  have hsoftware : (path qosRoot)[0]? = some (fold "SOFTWARE") :=
    constantKeys_software qosRoot (by simp)
  have hsystem : ∀ key ∈ [tcpKey, qosKey], ¬ path qosRoot <+: path key := by
    intro key hkey hstart
    have hkeySystem : (path key)[0]? = some (fold "SYSTEM") :=
      constantKeys_system key (by simp only [List.mem_cons] at hkey ⊢; tauto)
    rw [prefix_getElem? hstart hsoftware] at hkeySystem
    exact system_ne_software hkeySystem
  rw [setupWrites, if_neg hexes] at h
  rcases List.mem_append.mp h with h | h
  · rcases List.mem_append.mp h with h | h
    · obtain ⟨s, -, rfl⟩ := List.mem_map.mp h
      exact absurd hroot (hsystem tcpKey (by simp))
    · obtain ⟨s, -, rfl⟩ := List.mem_map.mp h
      exact absurd hroot (hsystem qosKey (by simp))
  · obtain ⟨exe, hexe, hw⟩ := List.mem_flatMap.mp h
    obtain ⟨s, -, rfl⟩ := List.mem_map.mp hw
    exact ⟨exe, hexe, rfl⟩

theorem setup_write {exes : List String} (hexes : exes ≠ []) {exe : String} (hexe : exe ∈ exes) :
    ∃ w ∈ setupWrites exes, w.key = policyPath exe := by
  refine ⟨Setting.write (policyPath exe) ⟨"Version", .text "1.0"⟩, ?_, rfl⟩
  rw [setupWrites, if_neg hexes]
  refine List.mem_append_right _ (List.mem_flatMap.mpr ⟨exe, hexe, List.mem_map_of_mem ?_⟩)
  simp [policySettings]

/-- The registry that a setup leaves. -/
structure SetUp (r r₁ : Registry) (exes : List String) : Prop where
  nonempty : exes ≠ []
  registry : r₁ = r.applyAll (setupWrites exes)

variable {r₁ : Registry} {exes : List String}

theorem SetUp.keys (h : SetUp r r₁ exes) : r.keys ⊆ r₁.keys := by
  rw [h.registry]
  exact r.keys_subset_applyAll _

theorem SetUp.subKeys (h : SetUp r r₁ exes) {q : Path} {n : KeyName} (hn : n ∈ r.subKeys q) :
    n ∈ r₁.subKeys q :=
  r₁.mem_subKeys.mpr (h.keys (r.mem_subKeys.mp hn))

/-- Where a key comes from that lies below the policy root. -/
theorem SetUp.mem_keys (h : SetUp r r₁ exes) {k : KeyEntry} (hk : k ∈ r₁.keys)
    (hroot : path qosRoot <+: k.parent) : k ∈ r.keys ∨
      ∃ exe ∈ exes, ∃ before after, components (policyPath exe) = before ++ k.name :: after ∧
        k.parent = before.map KeyName.folded := by
  rw [h.registry] at hk
  refine (Registry.mem_keys_applyAll _ hk).imp_right ?_
  rintro ⟨w, hw, before, after, hcs, hparent⟩
  have hsplit : path w.key = k.parent ++ (k.name :: after).map KeyName.folded := by
    rw [path, hcs, List.map_append, hparent]
  have hstart : path qosRoot <+: path w.key := hsplit ▸ hroot.trans (List.prefix_append _ _)
  obtain ⟨exe, hexe, hkey⟩ := setup_of_prefix h.nonempty hw hstart
  exact ⟨exe, hexe, before, after, hkey ▸ hcs, hparent⟩

/-- A key right below the root without the prefix was there before. -/
theorem SetUp.old_of_other (h : SetUp r r₁ exes) {n : KeyName} (hn : n ∈ r₁.subKeys (path qosRoot))
    (hother : isGamingPolicy n.text = false) : n ∈ r.subKeys (path qosRoot) := by
  rcases h.mem_keys (r₁.mem_subKeys.mp hn) (List.prefix_refl _) with hold | hnew
  · exact r.mem_subKeys.mpr hold
  · obtain ⟨exe, -, before, after, hcs, hparent⟩ := hnew
    obtain ⟨m, ms, hm, hcomponents⟩ := policyPath_components exe
    have hlen : (components qosRoot).length = before.length := by
      simpa [path] using congrArg List.length hparent
    rw [hcomponents] at hcs
    obtain ⟨-, hlast⟩ := List.append_inj hcs hlen
    rw [(List.cons.inj hlast).1, hother] at hm
    exact absurd hm Bool.false_ne_true

theorem SetUp.hasKey (h : SetUp r r₁ exes) {exe : String} (hexe : exe ∈ exes) :
    r₁.HasKey (path (policyPath exe)) := by
  obtain ⟨w, hw, hkey⟩ := setup_write h.nonempty hexe
  rw [h.registry, ← hkey]
  exact r.hasKey_applyAll hw

theorem SetUp.values (h : SetUp r r₁ exes) (loc : Location) : r₁.values loc =
    (lastBinding ((setupWrites exes).map Registry.Write.binding) loc).or (r.values loc) := by
  rw [h.registry, Registry.values_applyAll, overlay_apply]

/-- Inside a key that is spelled otherwise the setup changes nothing. -/
theorem SetUp.inside (h : SetUp r r₁ exes) (hr : Removable r exes) {n : KeyName}
    (hn : n ∈ r.subKeys (path qosRoot)) (hother : isGamingPolicy n.text = false) {q : Path}
    (hq : path qosRoot ++ [n.folded] <+: q) :
    r₁.subKeys q = r.subKeys q ∧ ∀ name, r₁.values (q, name) = r.values (q, name) := by
  have hpolicy : ∀ w ∈ setupWrites exes, q <+: path w.key →
      ∃ exe ∈ exes, w.key = policyPath exe ∧ InOtherKey r exe := by
    intro w hw hstart
    have hroot := ((List.prefix_append _ _).trans hq).trans hstart
    obtain ⟨exe, hexe, hkey⟩ := setup_of_prefix h.nonempty hw hroot
    exact ⟨exe, hexe, hkey, n, hn, hother, hkey ▸ hq.trans hstart⟩
  constructor
  · rw [h.registry]
    refine r.subKeys_applyAll_of_hasKey fun w hw m hm => ?_
    obtain ⟨exe, hexe, hkey, hin⟩ := hpolicy w hw ((List.prefix_append _ _).trans hm)
    obtain ⟨v, hv⟩ := exists_lastBinding (List.mem_map_of_mem (f := Registry.Write.binding) hw)
    have hlocation : w.binding.1 = (path (policyPath exe), fold w.name) := by rw [← hkey]; rfl
    rw [hlocation] at hv
    have hvalue := hr.stored exe hexe hin (fold w.name) v hv
    rw [hkey]
    exact r.owned _ (fold w.name) (hvalue ▸ Option.some_ne_none v)
  · intro name
    rw [h.values]
    cases hv : lastBinding ((setupWrites exes).map Registry.Write.binding) (q, name) with
    | none => rfl
    | some v =>
      obtain ⟨w, hw, hbinding⟩ := List.mem_map.mp (mem_of_lastBinding hv)
      have hpath : path w.key = q := congrArg (fun b => b.1.1) hbinding
      obtain ⟨exe, hexe, hkey, hin⟩ := hpolicy w hw (hpath ▸ List.prefix_refl _)
      rw [hkey] at hpath
      subst hpath
      exact (hr.stored exe hexe hin name v hv).symm

/-- A policy key has no subkeys after a setup that can be removed. -/
theorem SetUp.bare (h : SetUp r r₁ exes) (hr : Removable r exes) {n : KeyName}
    (hn : n ∈ r₁.subKeys (path qosRoot)) (hgaming : isGamingPolicy n.text = true) :
    r₁.subKeys (path qosRoot ++ [n.folded]) = [] := by
  -- a key of the old registry with this folded name is the same key
  have hsame : ∀ m ∈ r.subKeys (path qosRoot), m.folded = n.folded → m = n := by
    intro m hm hfolded
    have hentry : (⟨path qosRoot, m⟩ : KeyEntry) = ⟨path qosRoot, n⟩ :=
      r₁.eq_of_path (r₁.mem_subKeys.mp (h.subKeys hm)) (r₁.mem_subKeys.mp hn)
        (by simp [KeyEntry.path, hfolded])
    exact congrArg KeyEntry.name hentry
  rw [List.eq_nil_iff_forall_not_mem]
  intro k hk
  rcases h.mem_keys (r₁.mem_subKeys.mp hk) (List.prefix_append _ _) with hold | hnew
  · have hparent : r.HasKey (path qosRoot ++ [n.folded]) :=
      (r.rooted _ hold).imp (fun hnil => hnil) fun hmem => hmem
    obtain ⟨m, hm, hfolded⟩ := r.exists_subKey hparent
    obtain rfl := hsame m hm hfolded
    have hnone := hr.bare m hm hgaming
    rw [← r.mem_subKeys, hnone] at hold
    exact absurd hold List.not_mem_nil
  · obtain ⟨exe, hexe, before, after, hcs, hparent⟩ := hnew
    have hpath : path (policyPath exe) =
        (path qosRoot ++ [n.folded]) ++ (k :: after).map KeyName.folded := by
      rw [path, hcs, List.map_append, ← hparent]
    by_cases hin : InOtherKey r exe
    · obtain ⟨m, hm, hother, hstart⟩ := hin
      have hfolded : m.folded = n.folded := by
        have hboth := List.prefix_of_prefix_length_le hstart (hpath ▸ List.prefix_append _ _)
          (by simp)
        simpa using hboth
      rw [hsame m hm hfolded, hgaming] at hother
      exact absurd hother.symm Bool.false_ne_true
    · have hlen := hr.single exe hexe hin
      rw [hpath] at hlen
      simp at hlen

/-! Removing. -/

/-- A key goes with its values. -/
theorem regDeleteKey_keys (ok : env.AllSucceed) (root : String) (n : KeyName) (w : World)
    (k : KeyEntry) : k ∈ (regDeleteKey (root ++ "\\" ++ n.text) env w).2.registry.keys ↔
      k ∈ w.registry.keys ∧ emptied w.registry (path root) n (k.path, []) = false := by
  have hp : path (root ++ "\\" ++ n.text) = path root ++ [n.folded] := path_entry root n
  by_cases hdel : w.registry.HasKey (path root ++ [n.folded]) ∧
      w.registry.subKeys (path root ++ [n.folded]) = []
  · have hrun : (regDeleteKey (root ++ "\\" ++ n.text) env w).2.registry =
        w.registry.deleteKey (path root ++ [n.folded]) := by
      simp [regDeleteKey, call_run ok, hp, hdel]
    rw [hrun, Registry.keys_deleteKey _ hdel.2, List.mem_filter, emptied]
    refine and_congr_right fun _ => ?_
    by_cases hk : k.path = path root ++ [n.folded]
    · simp [hk, hdel.2]
    · simp [hk]
  · have hrun : (regDeleteKey (root ++ "\\" ++ n.text) env w).2.registry = w.registry := by
      simp [regDeleteKey, call_run ok, hp, hdel]
    rw [hrun]
    refine (and_iff_left_of_imp fun hk => decide_eq_false ?_).symm
    rintro ⟨hpath, hnone⟩
    have hhas := w.registry.hasKey_of_mem hk
    dsimp only at hpath hnone
    rw [hpath] at hhas hnone
    exact hdel ⟨hhas, hnone⟩

theorem regDeleteKey_loop_keys (ok : env.AllSucceed) (root : String) (ns : List KeyName) (w : World)
    (k : KeyEntry) :
    k ∈ (forEach (fun sk => regDeleteKey (root ++ "\\" ++ sk)) (ns.map KeyName.text)
        env w).2.registry.keys ↔
      k ∈ w.registry.keys ∧
        (ns.any fun n => emptied w.registry (path root) n (k.path, [])) = false := by
  induction ns generalizing w with
  | nil => simp [forEach]
  | cons n ns ih =>
    have hfirst := regDeleteKey_removed ok root n w
    have hsame : ∀ m, emptied (regDeleteKey (root ++ "\\" ++ n.text) env w).2.registry
        (path root) m (k.path, []) = emptied w.registry (path root) m (k.path, []) := by
      intro m
      unfold emptied
      by_cases hk : k.path = path root ++ [m.folded]
      · have hne : k.path ≠ path root := by
          rw [hk]
          intro heq
          simpa using congrArg List.length heq
        rw [hfirst.subKeys _ hne]
      · simp [hk]
    have hrest := ih (regDeleteKey (root ++ "\\" ++ n.text) env w).2
    simp only [hsame, regDeleteKey_keys ok root n w k] at hrest
    rw [List.any_cons, Bool.or_eq_false_iff, ← and_assoc]
    exact hrest

theorem removeGamingQoSPolicies_keys (ok : env.AllSucceed) (w : World) (k : KeyEntry) :
    k ∈ (removeGamingQoSPolicies env w).2.registry.keys ↔
      k ∈ w.registry.keys ∧ policyRemoved w.registry (k.path, []) = false := by
  obtain ⟨-, hquiet⟩ := enumerateSubKeys_run ok qosRoot w
  have hloop := regDeleteKey_loop_keys ok qosRoot
    ((w.registry.subKeys (path qosRoot)).filter fun n => isGamingPolicy n.text)
    (enumerateSubKeys qosRoot env w).2 k
  rw [removeGamingQoSPolicies_loop ok]
  rw [hquiet] at hloop ⊢
  exact hloop

/-- Which keys right below the root the removal deletes. -/
theorem policyRemoved_entry {n : KeyName} (hn : n ∈ r.subKeys (path qosRoot)) (name : Name) :
    policyRemoved r (path qosRoot ++ [n.folded], name) = true ↔
      isGamingPolicy n.text = true ∧ r.subKeys (path qosRoot ++ [n.folded]) = [] := by
  constructor
  · intro hremoved
    obtain ⟨m, hm, hemptied⟩ := List.any_eq_true.mp hremoved
    obtain ⟨hmem, hgaming⟩ := List.mem_filter.mp hm
    obtain ⟨hpath, hnone⟩ := of_decide_eq_true hemptied
    have hentry : (⟨path qosRoot, n⟩ : KeyEntry) = ⟨path qosRoot, m⟩ :=
      r.eq_of_path (r.mem_subKeys.mp hn) (r.mem_subKeys.mp hmem) hpath
    obtain rfl : n = m := congrArg KeyEntry.name hentry
    exact ⟨hgaming, hnone⟩
  · rintro ⟨hgaming, hnone⟩
    exact List.any_eq_true.mpr ⟨n, List.mem_filter.mpr ⟨hn, hgaming⟩, decide_eq_true ⟨rfl, hnone⟩⟩

/-- Two names right below the root with one place are one name. -/
theorem subKey_unique {n m : KeyName} (hn : n ∈ r.subKeys (path qosRoot))
    (hm : m ∈ r.subKeys (path qosRoot))
    (h : path qosRoot ++ [n.folded] <+: path qosRoot ++ [m.folded]) : n = m := by
  have hpath : path qosRoot ++ [n.folded] = path qosRoot ++ [m.folded] := h.eq_of_length (by simp)
  have hentry : (⟨path qosRoot, n⟩ : KeyEntry) = ⟨path qosRoot, m⟩ :=
    r.eq_of_path (r.mem_subKeys.mp hn) (r.mem_subKeys.mp hm) hpath
  exact congrArg KeyEntry.name hentry

/-- A registry before and after the removal. -/
structure Removal (r₁ r₂ : Registry) : Prop where
  keys : ∀ k, k ∈ r₂.keys ↔ k ∈ r₁.keys ∧ policyRemoved r₁ (k.path, []) = false
  subKeys : ∀ q, q ≠ path qosRoot → r₂.subKeys q = r₁.subKeys q
  values : r₂.values = Registry.without r₁.values (policyRemoved r₁)

theorem removeGamingQoSPolicies_removal (ok : env.AllSucceed) (w : World) :
    Removal w.registry (removeGamingQoSPolicies env w).2.registry where
  keys := removeGamingQoSPolicies_keys ok w
  subKeys := (removeGamingQoSPolicies_removed ok w).subKeys
  values := (removeGamingQoSPolicies_removed ok w).values

variable {r₂ : Registry}

theorem Removal.mem_root (h : Removal r₁ r₂) {n : KeyName} : n ∈ r₂.subKeys (path qosRoot) ↔
    n ∈ r₁.subKeys (path qosRoot) ∧
      ¬ (isGamingPolicy n.text = true ∧ r₁.subKeys (path qosRoot ++ [n.folded]) = []) := by
  rw [Registry.mem_subKeys, h.keys, ← Registry.mem_subKeys, KeyEntry.path]
  refine and_congr_right fun hn => ?_
  rw [← policyRemoved_entry hn [], Bool.not_eq_true]

theorem Removal.inside (h : Removal r₁ r₂) {n : KeyName} (hn : n ∈ r₁.subKeys (path qosRoot))
    (hother : isGamingPolicy n.text = false) {q : Path} (hq : path qosRoot ++ [n.folded] <+: q) :
    r₂.subKeys q = r₁.subKeys q ∧ ∀ name, r₂.values (q, name) = r₁.values (q, name) := by
  constructor
  · refine h.subKeys q ?_
    rintro rfl
    simpa using hq.length_le
  · intro name
    have hstays : ¬ policyRemoved r₁ (q, name) = true := by
      intro hremoved
      obtain ⟨m, hm, hemptied⟩ := List.any_eq_true.mp hremoved
      obtain ⟨hmem, hgaming⟩ := List.mem_filter.mp hm
      obtain ⟨hpath, -⟩ := of_decide_eq_true hemptied
      dsimp only at hpath
      rw [hpath] at hq
      rw [← subKey_unique hn hmem hq, hother] at hgaming
      exact Bool.false_ne_true hgaming
    rw [h.values, Registry.without, if_neg hstays]

/-- The first key of a policy path below the root, as it is spelled after the setup. -/
theorem SetUp.policy_key (h : SetUp r r₁ exes) {exe : String} (hexe : exe ∈ exes) :
    ∃ m ∈ r₁.subKeys (path qosRoot), path qosRoot ++ [m.folded] <+: path (policyPath exe) ∧
      (r₁.subKeys (path qosRoot ++ [m.folded]) = [] →
        (path (policyPath exe)).length = (path qosRoot).length + 1) := by
  obtain ⟨n, ns, -, hcomponents⟩ := policyPath_components exe
  have hpath : path (policyPath exe) =
      (path qosRoot ++ [n.folded]) ++ ns.map KeyName.folded := by
    rw [path, hcomponents, path]
    simp
  have hhas := h.hasKey hexe
  rw [hpath] at hhas
  obtain ⟨m, hm, hfolded⟩ := r₁.exists_subKey (r₁.hasKey_of_append hhas)
  refine ⟨m, hm, ?_⟩
  rw [hfolded, hpath]
  refine ⟨List.prefix_append _ _, fun hnone => ?_⟩
  cases ns with
  | nil => simp
  | cons d ds =>
    have hlong : r₁.HasKey (((path qosRoot ++ [n.folded]) ++ [d.folded]) ++ ds.map KeyName.folded) := by
      simpa using hhas
    obtain ⟨k, hk, -⟩ := r₁.exists_subKey (r₁.hasKey_of_append hlong)
    rw [hnone] at hk
    exact absurd hk List.not_mem_nil

/-- Setting up and removing leaves the other policies as they were exactly when the names can be
removed. -/
theorem policiesRemoved_iff (hup : SetUp r r₁ exes) (hdown : Removal r₁ r₂) :
    PoliciesRemoved r r₂ ↔ Removable r exes := by
  constructor
  · intro h
    have hbare : ∀ n ∈ r₁.subKeys (path qosRoot), isGamingPolicy n.text = true →
        r₁.subKeys (path qosRoot ++ [n.folded]) = [] := by
      intro n hn hgaming
      by_contra hsub
      have hleft := h.gone n (hdown.mem_root.mpr ⟨hn, fun hboth => hsub hboth.2⟩)
      rw [hleft] at hgaming
      exact Bool.false_ne_true hgaming
    refine ⟨fun n hn hgaming => ?_, fun exe hexe hout => ?_, fun exe hexe hin name v hv => ?_⟩
    · rw [List.eq_nil_iff_forall_not_mem]
      intro k hk
      have hmem := hup.subKeys hk
      rw [hbare n (hup.subKeys hn) hgaming] at hmem
      exact List.not_mem_nil hmem
    · obtain ⟨m, hm, hstart, hlen⟩ := hup.policy_key hexe
      cases hspelled : isGamingPolicy m.text with
      | true => exact hlen (hbare m hm hspelled)
      | false => exact absurd ⟨m, hup.old_of_other hm hspelled, hspelled, hstart⟩ hout
    · obtain ⟨n, hn, hother, hstart⟩ := hin
      obtain ⟨-, hvalues⟩ := hdown.inside (hup.subKeys hn) hother hstart
      obtain ⟨-, hvalues'⟩ := h.inside n hn hother _ hstart
      rw [← hvalues' name, hvalues name, hup.values, hv]
      rfl
  · intro h
    have hbare : ∀ n ∈ r₁.subKeys (path qosRoot), isGamingPolicy n.text = true →
        r₁.subKeys (path qosRoot ++ [n.folded]) = [] := fun n hn hgaming => hup.bare h hn hgaming
    refine ⟨fun n hn => ?_, fun n hother => ?_, fun n hn hother q hq => ?_⟩
    · obtain ⟨hmem, hkept⟩ := hdown.mem_root.mp hn
      rw [← Bool.not_eq_true]
      exact fun hgaming => hkept ⟨hgaming, hbare n hmem hgaming⟩
    · rw [hdown.mem_root]
      constructor
      · exact fun hn => hup.old_of_other hn.1 hother
      · intro hn
        refine ⟨hup.subKeys hn, fun hboth => ?_⟩
        rw [hother] at hboth
        exact Bool.false_ne_true hboth.1
    · obtain ⟨hsub, hvalues⟩ := hdown.inside (hup.subKeys hn) hother hq
      obtain ⟨hsub', hvalues'⟩ := hup.inside h hn hother hq
      exact ⟨hsub.trans hsub', fun name => (hvalues name).trans (hvalues' name)⟩

/-! The run. -/

theorem setup_admin {exes : List String} {w : World}
    (hsetup : (setupGamingQoSPolicies exes env w).1.success = true) : env.admin = true := by
  cases hadmin : env.admin with
  | true => rfl
  | false =>
    have hrefused : (enableUserTOS env w).1.success = false := by
      rw [enableUserTOS, asAdmin_run, hadmin]
      rfl
    rw [setupGamingQoSPolicies, bind_run, hrefused] at hsetup
    exact absurd (hrefused.symm.trans hsetup) Bool.false_ne_true

theorem setup_setUp (ok : env.AllSucceed) {exes : List String} (hexes : exes ≠ []) {w : World}
    (hsetup : (setupGamingQoSPolicies exes env w).1.success = true) :
    SetUp w.registry (setupGamingQoSPolicies exes env w).2.registry exes where
  nonempty := hexes
  registry := (setupGamingQoSPolicies_stores (setup_admin hsetup) ok exes w (Footing.refl _)).1.registry

/-- When removing the policies takes back a setup that succeeded. -/
theorem removeGamingQoSPolicies_iff (ok : env.AllSucceed) {exes : List String} (hexes : exes ≠ [])
    {w : World} (hsetup : (setupGamingQoSPolicies exes env w).1.success = true) :
    PoliciesRemoved w.registry
        (removeGamingQoSPolicies env (setupGamingQoSPolicies exes env w).2).2.registry ↔
      Removable w.registry exes :=
  policiesRemoved_iff (setup_setUp ok hexes hsetup) (removeGamingQoSPolicies_removal ok _)

theorem setup_succeeds (admin : env.admin = true) (ok : env.AllSucceed) {exes : List String}
    (hexes : exes ≠ []) (w : World) : (setupGamingQoSPolicies exes env w).1.success = true := by
  have henabled : (enableUserTOS env w).1.success = true := by
    simp only [enableUserTOS, asAdmin_run, admin, if_true, bind_run, pure_run,
      applySettings_result ok, Bool.and_self]
  rw [setupGamingQoSPolicies, bind_run, if_pos henabled, if_neg hexes]
  obtain ⟨exe, exes, rfl⟩ := List.exists_cons_of_ne_nil hexes
  simp only [forEach, bind_run, pure_run, List.length_cons]
  exact decide_eq_true (Nat.succ_pos _)

theorem subKeys_empty (p : Path) : Registry.empty.subKeys p = [] := rfl

theorem not_inOtherKey_empty (exe : String) : ¬ InOtherKey Registry.empty exe := by
  rintro ⟨n, hn, -⟩
  rw [subKeys_empty] at hn
  exact absurd hn List.not_mem_nil

theorem policiesRemoved_cs2 : PoliciesRemoved Registry.empty
    (removeGamingQoSPolicies adminEnvironment
      (setupGamingQoSPolicies ["cs2.exe"] adminEnvironment (worldWith .empty)).2).2.registry := by
  have hok : adminEnvironment.AllSucceed := fun _ => rfl
  have hsetup := setup_succeeds rfl hok (List.cons_ne_nil "cs2.exe" []) (worldWith .empty)
  refine (removeGamingQoSPolicies_iff hok (List.cons_ne_nil _ _) hsetup).mpr ⟨?_, ?_, ?_⟩
  · intro n hn
    rw [worldWith, subKeys_empty] at hn
    exact absurd hn List.not_mem_nil
  · intro exe hexe _
    have hdefault : "cs2.exe" ∈ getDefaultGamingExecutables := by simp [getDefaultGamingExecutables]
    obtain ⟨n, -, hcomponents⟩ := policyPath_entry hdefault
    rw [List.mem_singleton.mp hexe, path_policyPath hcomponents]
    simp
  · exact fun exe _ hin => absurd hin (not_inOtherKey_empty exe)

/-- A name with a backslash makes a policy key with a subkey, which is not deleted. -/
theorem not_policiesRemoved_backslash : ¬ ∀ (env : Environment) (exes : List String) (w : World),
    env.AllSucceed → exes ≠ [] → (∀ exe ∈ exes, exe ≠ "" ∧ '\x00' ∉ exe.toList) →
      (setupGamingQoSPolicies exes env w).1.success = true →
      PoliciesRemoved w.registry
        (removeGamingQoSPolicies env (setupGamingQoSPolicies exes env w).2).2.registry := by
  intro hall
  have hok : adminEnvironment.AllSucceed := fun _ => rfl
  have hexes : ["a\\b"] ≠ [] := List.cons_ne_nil _ _
  have hsetup := setup_succeeds rfl hok hexes (worldWith .empty)
  have hclaimed := hall adminEnvironment ["a\\b"] (worldWith .empty) hok hexes
    (List.forall_mem_singleton.mpr ⟨by decide, by decide⟩) hsetup
  rw [policiesRemoved_iff (setup_setUp hok hexes hsetup) (removeGamingQoSPolicies_removal hok _)]
    at hclaimed
  have hlen := hclaimed.single "a\\b" (by simp) (not_inOtherKey_empty _)
  have htwo : (path (policyPrefix ++ "a\\b")).length = 2 := by
    have hchars : policyPrefix ++ "a\\b" = String.ofList (policyPrefix.toList ++ "a\\b".toList) := by
      simp
    rw [path_literal hchars]
    decide
  rw [policyPath, path_child, List.length_append, htwo] at hlen
  omega

end Disping.Rollback
