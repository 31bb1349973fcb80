import Disping.Hive.Registry

/-! # Writes into a hive

A write makes its key when it is missing and then sets the value. Over many writes the values are
the bindings laid over the old ones, and a key stays as it was spelled.
-/
namespace Disping.Hive.Registry

variable (r : Registry)

@[simp] theorem values_addKey (p : Path) (n : KeyName) : (r.addKey p n).values = r.values := by
  unfold addKey
  split <;> rfl

@[simp] theorem values_createFrom (p : Path) (ns : List KeyName) :
    (r.createFrom p ns).values = r.values := by
  induction ns generalizing r p with
  | nil => rfl
  | cons n ns ih => rw [createFrom, ih, values_addKey]

@[simp] theorem values_create (ns : List KeyName) : (r.create ns).values = r.values :=
  r.values_createFrom [] ns

theorem keys_addKey (p : Path) (n : KeyName) : (r.addKey p n).keys =
    if r.HasKey p ∧ ¬ r.HasKey (p ++ [n.folded]) then r.keys ++ [⟨p, n⟩] else r.keys := by
  unfold addKey
  split <;> rfl

theorem addKey_of_hasKey {p : Path} {n : KeyName} (h : r.HasKey (p ++ [n.folded])) :
    r.addKey p n = r := by
  unfold addKey
  exact dif_neg fun hc => hc.2 h

theorem hasKey_of_keys_subset {r r' : Registry} (h : r.keys ⊆ r'.keys) {p : Path}
    (hp : r.HasKey p) : r'.HasKey p := by
  refine hp.imp_right fun hmem => ?_
  obtain ⟨k, hk, rfl⟩ := List.mem_map.mp hmem
  exact List.mem_map_of_mem (h hk)

theorem keys_subset_addKey (p : Path) (n : KeyName) : r.keys ⊆ (r.addKey p n).keys := by
  rw [keys_addKey]
  split
  · exact List.subset_append_left _ _
  · exact List.Subset.refl _

theorem keys_subset_createFrom (p : Path) (ns : List KeyName) :
    r.keys ⊆ (r.createFrom p ns).keys := by
  induction ns generalizing r p with
  | nil => exact List.Subset.refl _
  | cons n ns ih => exact List.Subset.trans (r.keys_subset_addKey p n) (ih _ _)

theorem hasKey_addKey_self {p : Path} (n : KeyName) (h : r.HasKey p) :
    (r.addKey p n).HasKey (p ++ [n.folded]) := by
  by_cases hc : r.HasKey (p ++ [n.folded])
  · rwa [r.addKey_of_hasKey hc]
  · right
    rw [keys_addKey, if_pos ⟨h, hc⟩, List.map_append]
    exact List.mem_append_right _ (by simp [KeyEntry.path])

theorem hasKey_createFrom_self {p : Path} (ns : List KeyName) (h : r.HasKey p) :
    (r.createFrom p ns).HasKey (p ++ ns.map KeyName.folded) := by
  induction ns generalizing r p with
  | nil => rwa [List.map_nil, List.append_nil]
  | cons n ns ih =>
    have hnext := ih (r.addKey p n) (r.hasKey_addKey_self n h)
    simpa [createFrom] using hnext

/-- A path that is there is not made again. -/
theorem createFrom_of_hasKey {p : Path} {ns : List KeyName}
    (h : r.HasKey (p ++ ns.map KeyName.folded)) : r.createFrom p ns = r := by
  induction ns generalizing p with
  | nil => rfl
  | cons n ns ih =>
    have hlong : r.HasKey ((p ++ [n.folded]) ++ ns.map KeyName.folded) := by simpa using h
    rw [createFrom, r.addKey_of_hasKey (r.hasKey_of_append hlong)]
    exact ih hlong

/-- Where the keys of a made path come from. -/
theorem mem_keys_createFrom {p : Path} {ns : List KeyName} {k : KeyEntry}
    (h : k ∈ (r.createFrom p ns).keys) : k ∈ r.keys ∨
      ¬ r.HasKey k.path ∧ ∃ before after, ns = before ++ k.name :: after ∧
        k.parent = p ++ before.map KeyName.folded := by
  induction ns generalizing r p with
  | nil => exact Or.inl h
  | cons n ns ih =>
    rcases ih (r.addKey p n) h with hold | ⟨hnew, before, after, rfl, hparent⟩
    · rw [keys_addKey] at hold
      split at hold
      · rename_i hadd
        rcases List.mem_append.mp hold with hold | hold
        · exact Or.inl hold
        · rw [List.mem_singleton.mp hold]
          exact Or.inr ⟨hadd.2, [], ns, rfl, by simp⟩
      · exact Or.inl hold
    · right
      refine ⟨fun hk => hnew (hasKey_of_keys_subset (r.keys_subset_addKey p n) hk),
        n :: before, after, rfl, by simpa using hparent⟩

theorem subKeys_addKey (p q : Path) (n : KeyName) (h : q = p → r.HasKey (p ++ [n.folded])) :
    (r.addKey p n).subKeys q = r.subKeys q := by
  unfold subKeys
  rw [keys_addKey]
  split
  · rename_i hadd
    have hne : p ≠ q := fun heq => hadd.2 (h heq.symm)
    rw [List.filter_append, List.filter_singleton]
    simp [hne]
  · rfl

/-- Only a key right above a new one lists something new. -/
theorem subKeys_createFrom (p q : Path) (ns : List KeyName)
    (h : ∀ before n after, ns = before ++ n :: after → q = p ++ before.map KeyName.folded →
      r.HasKey (q ++ [n.folded])) : (r.createFrom p ns).subKeys q = r.subKeys q := by
  induction ns generalizing r p with
  | nil => rfl
  | cons n ns ih =>
    rw [createFrom, ih]
    · exact r.subKeys_addKey p q n fun hq => hq ▸ h [] n ns rfl (by simpa using hq)
    · rintro before m after rfl hq
      have hold := h (n :: before) m after rfl (by simpa using hq)
      exact hasKey_of_keys_subset (r.keys_subset_addKey p n) hold

@[simp] theorem keys_setValue (p : Path) (n : Name) (v : RegValue) :
    (r.setValue p n v).keys = r.keys := by
  unfold setValue
  split <;> rfl

theorem values_setValue {p : Path} (n : Name) (v : RegValue) (h : r.HasKey p) :
    (r.setValue p n v).values = Function.update r.values (p, n) (some v) := by
  unfold setValue
  rw [dif_pos h]

/-- A value to set, by the texts of its key and its name. -/
structure Write where
  key : String
  name : String
  value : RegValue
deriving DecidableEq

def Write.location (w : Write) : Location := (path w.key, fold w.name)

theorem Write.location_fst (w : Write) : w.location.1 = path w.key := rfl

/-- The write as a binding of its location. -/
def Write.binding (w : Write) : Location × RegValue := (w.location, w.value)

def apply (w : Write) : Registry :=
  (r.create (components w.key)).setValue (path w.key) (fold w.name) w.value

def applyAll (ws : List Write) : Registry := ws.foldl apply r

theorem hasKey_create (key : String) : (r.create (components key)).HasKey (path key) :=
  r.hasKey_createFrom_self (components key) (Or.inl rfl)

/-- A made key lies on the way. -/
theorem hasKey_create_cases {key : String} {p : Path} (h : (r.create (components key)).HasKey p) :
    r.HasKey p ∨ p <+: path key := by
  rcases h with hroot | hmem
  · exact .inl (.inl hroot)
  · obtain ⟨k, hk, rfl⟩ := List.mem_map.mp hmem
    rcases r.mem_keys_createFrom hk with hold | ⟨-, before, after, hcs, hparent⟩
    · exact .inl (r.hasKey_of_mem hold)
    · right
      have hpath : path key = k.path ++ after.map KeyName.folded := by
        rw [path, hcs, KeyEntry.path, hparent]
        simp
      exact hpath ▸ List.prefix_append _ _

@[simp] theorem keys_apply (w : Write) : (r.apply w).keys = (r.create (components w.key)).keys :=
  keys_setValue _ _ _ _

theorem values_apply (w : Write) :
    (r.apply w).values = Function.update r.values w.location (some w.value) := by
  rw [apply, values_setValue _ _ _ (r.hasKey_create w.key), values_create]
  rfl

theorem find_apply (key name : String) (v : RegValue) :
    (r.apply ⟨key, name, v⟩).find key name = some v := by
  rw [find, values_apply]
  exact Function.update_self ..

theorem find_apply_of_ne {name name' : String} (h : fold name ≠ fold name') (key key' : String)
    (v : RegValue) : (r.apply ⟨key', name', v⟩).find key name = r.find key name := by
  rw [find, find, values_apply]
  exact Function.update_of_ne (fun heq => h (congrArg Prod.snd heq)) ..

theorem applyAll_singleton (w : Write) : r.applyAll [w] = r.apply w := rfl

theorem applyAll_concat (ws : List Write) (w : Write) :
    r.applyAll (ws ++ [w]) = (r.applyAll ws).apply w := by
  rw [applyAll, List.foldl_append]
  rfl

theorem applyAll_append (ws vs : List Write) :
    r.applyAll (ws ++ vs) = (r.applyAll ws).applyAll vs :=
  List.foldl_append

/-- The values after many writes. -/
theorem values_applyAll (ws : List Write) :
    (r.applyAll ws).values = overlay r.values (ws.map Write.binding) := by
  induction ws using List.reverseRecOn with
  | nil => rfl
  | append_singleton ws w ih =>
    rw [applyAll_concat, values_apply, ih, List.map_append, overlay, overlay, List.foldl_append]
    rfl

theorem values_applyAll_of_ne {ws : List Write} {loc : Location} (h : ∀ w ∈ ws, w.location ≠ loc) :
    (r.applyAll ws).values loc = r.values loc := by
  induction ws using List.reverseRecOn with
  | nil => rfl
  | append_singleton ws w ih =>
    rw [applyAll_concat, values_apply, Function.update_of_ne (Ne.symm (h w (by simp)))]
    exact ih fun v hv => h v (by simp [hv])

/-- Writes to different places are all found again. -/
theorem values_applyAll_of_mem {ws : List Write} {w : Write} (hws : (ws.map Write.location).Nodup)
    (hw : w ∈ ws) : (r.applyAll ws).values w.location = some w.value := by
  induction ws using List.reverseRecOn with
  | nil => exact absurd hw List.not_mem_nil
  | append_singleton ws v ih =>
    rw [List.map_append, List.nodup_append] at hws
    rw [applyAll_concat, values_apply]
    rcases List.mem_append.mp hw with hold | hlast
    · have hne : w.location ≠ v.location := hws.2.2 _ (List.mem_map_of_mem hold) _ (by simp)
      rw [Function.update_of_ne hne]
      exact ih hws.1 hold
    · rw [List.mem_singleton.mp hlast, Function.update_self]

/-- A value that is there already is not written anew. -/
theorem apply_of_held {w : Write} (h : r.values w.location = some w.value) : r.apply w = r := by
  have hkey : r.HasKey (path w.key) := by
    refine r.owned (path w.key) (fold w.name) ?_
    change r.values w.location ≠ none
    rw [h]
    exact Option.some_ne_none _
  have hcreate : r.create (components w.key) = r := r.createFrom_of_hasKey hkey
  have hsame : Function.update r.values (path w.key, fold w.name) (some w.value) = r.values := by
    rw [Function.update_eq_self_iff]
    exact h.symm
  rw [apply, hcreate, setValue, dif_pos hkey]
  simp only [hsame]

theorem applyAll_of_held {ws : List Write} (h : ∀ w ∈ ws, r.values w.location = some w.value) :
    r.applyAll ws = r := by
  induction ws with
  | nil => rfl
  | cons w ws ih =>
    obtain ⟨hw, hws⟩ := List.forall_mem_cons.mp h
    have hcons : r.applyAll (w :: ws) = (r.apply w).applyAll ws := rfl
    rw [hcons, r.apply_of_held hw]
    exact ih hws

theorem keys_subset_applyAll (ws : List Write) : r.keys ⊆ (r.applyAll ws).keys := by
  induction ws using List.reverseRecOn with
  | nil => exact List.Subset.refl _
  | append_singleton ws w ih =>
    rw [applyAll_concat, keys_apply]
    exact List.Subset.trans ih (keys_subset_createFrom _ _ _)

/-- A write below a key that is there adds no key. -/
theorem keys_apply_of_hasKey {w : Write} (h : r.HasKey (path w.key)) :
    (r.apply w).keys = r.keys := by
  rw [keys_apply, create, r.createFrom_of_hasKey h]

/-- A write that goes on below a key is the only one to add a name there. -/
theorem subKeys_apply {q : Path} {w : Write} (h : ∀ n, ¬ q ++ [n] <+: path w.key) :
    (r.apply w).subKeys q = r.subKeys q := by
  have hkeys : (r.apply w).subKeys q = (r.create (components w.key)).subKeys q := by
    unfold subKeys
    rw [keys_apply]
  rw [hkeys]
  refine r.subKeys_createFrom [] q _ fun before n after hcs hq => absurd ?_ (h n.folded)
  rw [hq, path, hcs, List.map_append, List.map_cons, List.nil_append]
  exact ⟨after.map KeyName.folded, by simp⟩

/-- Writes that go on below a key into keys that are there add no name to it. -/
theorem subKeys_applyAll_of_hasKey {q : Path} {ws : List Write}
    (h : ∀ w ∈ ws, ∀ n, q ++ [n] <+: path w.key → r.HasKey (path w.key)) :
    (r.applyAll ws).subKeys q = r.subKeys q := by
  induction ws using List.reverseRecOn with
  | nil => rfl
  | append_singleton ws w ih =>
    rw [applyAll_concat, ← ih fun v hv => h v (by simp [hv])]
    by_cases hw : ∃ n, q ++ [n] <+: path w.key
    · obtain ⟨n, hn⟩ := hw
      have hkey := hasKey_of_keys_subset (r.keys_subset_applyAll ws) (h w (by simp) n hn)
      unfold subKeys
      rw [keys_apply_of_hasKey _ hkey]
    · exact subKeys_apply _ fun n hn => hw ⟨n, hn⟩

theorem subKeys_applyAll {q : Path} {ws : List Write}
    (h : ∀ w ∈ ws, ∀ n, ¬ q ++ [n] <+: path w.key) : (r.applyAll ws).subKeys q = r.subKeys q :=
  r.subKeys_applyAll_of_hasKey fun w hw n hn => absurd hn (h w hw n)

theorem hasKey_applyAll {ws : List Write} {w : Write} (hw : w ∈ ws) :
    (r.applyAll ws).HasKey (path w.key) := by
  obtain ⟨before, after, rfl⟩ := List.append_of_mem hw
  have hsplit : r.applyAll (before ++ w :: after) =
      ((r.applyAll before).apply w).applyAll after := applyAll_append r before (w :: after)
  rw [hsplit]
  refine hasKey_of_keys_subset (keys_subset_applyAll _ after) ?_
  refine hasKey_of_keys_subset ?_ (hasKey_create (r.applyAll before) w.key)
  rw [keys_apply]
  exact List.Subset.refl _

/-- A key is an old one or was spelled by a write. -/
theorem mem_keys_applyAll {ws : List Write} {k : KeyEntry} (h : k ∈ (r.applyAll ws).keys) :
    k ∈ r.keys ∨ ∃ w ∈ ws, ∃ before after, components w.key = before ++ k.name :: after ∧
      k.parent = before.map KeyName.folded := by
  induction ws using List.reverseRecOn with
  | nil => exact Or.inl h
  | append_singleton ws w ih =>
    rw [applyAll_concat, keys_apply] at h
    rcases mem_keys_createFrom _ h with hold | ⟨-, before, after, hcs, hparent⟩
    · refine (ih hold).imp_right ?_
      rintro ⟨v, hv, hspelled⟩
      exact ⟨v, List.mem_append_left _ hv, hspelled⟩
    · exact Or.inr ⟨w, by simp, before, after, hcs, by simpa using hparent⟩

end Disping.Hive.Registry
