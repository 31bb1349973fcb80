import Disping.Host.Console

/-! # What actions read and store when every call succeeds

Both judgements hold on the worlds whose registry satisfies a given property, the footing. An
action that reads answers with one value there and leaves registry and files as they are; an
action that stores appends a list of writes and stays on the footing.
-/
namespace Disping.Host

open Hive

variable {α β : Type} {env : Environment} {V : Registry → Prop}

/-- Nothing changed but the number of calls made. -/
def Quiet (w w' : World) : Prop := w' = { w with calls := w'.calls }

namespace Quiet

variable {w w' w'' : World}

theorem registry (h : Quiet w w') : w'.registry = w.registry := by rw [h]

theorem netsh (h : Quiet w w') : w'.netsh = w.netsh := by rw [h]

theorem trans (h : Quiet w w') (h' : Quiet w' w'') : Quiet w w'' := by
  unfold Quiet at h h' ⊢
  rw [h', h]

end Quiet

def Reads (env : Environment) (V : Registry → Prop) (m : Win α) (a : α) : Prop :=
  ∀ w, V w.registry → (m env w).1 = a ∧ Quiet w (m env w).2

/-- The world after the writes. -/
structure Stored (w w' : World) (ws : List Registry.Write) : Prop where
  registry : w'.registry = w.registry.applyAll ws
  written : w'.written = w.written ++ ws
  files : w'.files = w.files

theorem Stored.of_quiet {w w' : World} (h : Quiet w w') : Stored w w' [] := by
  rw [h]
  exact ⟨rfl, (List.append_nil _).symm, rfl⟩

theorem Stored.trans {w w' w'' : World} {ws vs : List Registry.Write} (h : Stored w w' ws)
    (h' : Stored w' w'' vs) : Stored w w'' (ws ++ vs) where
  registry := by rw [h'.registry, h.registry, Registry.applyAll_append]
  written := by rw [h'.written, h.written, List.append_assoc]
  files := h'.files.trans h.files

def Stores (env : Environment) (V : Registry → Prop) (m : Win α) (ws : List Registry.Write) :
    Prop :=
  ∀ w, V w.registry → Stored w (m env w).2 ws ∧ V (m env w).2.registry

theorem Reads.stores {m : Win α} {a : α} (h : Reads env V m a) : Stores env V m [] := by
  intro w hw
  obtain ⟨-, hquiet⟩ := h w hw
  exact ⟨Stored.of_quiet hquiet, hquiet.registry ▸ hw⟩

theorem Reads.pure (a : α) : Reads env V (pure a) a := fun _ _ => ⟨rfl, rfl⟩

theorem Reads.bind {m : Win α} {f : α → Win β} {a : α} {b : β} (hm : Reads env V m a)
    (hf : Reads env V (f a) b) : Reads env V (m >>= f) b := by
  intro w hw
  obtain ⟨ha, hquiet⟩ := hm w hw
  obtain ⟨hb, hquiet'⟩ := hf (m env w).2 (hquiet.registry ▸ hw)
  rw [bind_run, ha]
  exact ⟨hb, hquiet.trans hquiet'⟩

theorem Stores.pure (a : α) : Stores env V (pure a) [] := (Reads.pure a).stores

/-- A value read decides how the action goes on. -/
theorem Reads.bind_stores {m : Win α} {f : α → Win β} {a : α} {ws : List Registry.Write}
    (hm : Reads env V m a) (hf : Stores env V (f a) ws) : Stores env V (m >>= f) ws := by
  intro w hw
  obtain ⟨ha, hquiet⟩ := hm w hw
  obtain ⟨hstored, hV⟩ := hf (m env w).2 (hquiet.registry ▸ hw)
  rw [bind_run, ha]
  exact ⟨(Stored.of_quiet hquiet).trans hstored, hV⟩

theorem Stores.bind {m : Win α} {f : α → Win β} {ws vs : List Registry.Write}
    (hm : Stores env V m ws) (hf : ∀ a, Stores env V (f a) vs) :
    Stores env V (m >>= f) (ws ++ vs) := by
  intro w hw
  obtain ⟨hstored, hV⟩ := hm w hw
  obtain ⟨hstored', hV'⟩ := hf (m env w).1 (m env w).2 hV
  exact ⟨hstored.trans hstored', hV'⟩

/-- The answer of what comes first, when something is known of it. -/
theorem Stores.bind_of {m : Win α} {f : α → Win β} {ws vs : List Registry.Write} {P : α → Prop}
    (hm : Stores env V m ws) (hP : ∀ w, P (m env w).1) (hf : ∀ a, P a → Stores env V (f a) vs) :
    Stores env V (m >>= f) (ws ++ vs) := by
  intro w hw
  obtain ⟨hstored, hV⟩ := hm w hw
  obtain ⟨hstored', hV'⟩ := hf _ (hP w) (m env w).2 hV
  exact ⟨hstored.trans hstored', hV'⟩

/-- What stores nothing may come after or before anything. -/
theorem Stores.bind_nil {m : Win α} {f : α → Win β} {ws : List Registry.Write}
    (hm : Stores env V m ws) (hf : ∀ a, Stores env V (f a) []) : Stores env V (m >>= f) ws := by
  rw [← List.append_nil ws]
  exact hm.bind hf

theorem Stores.bind_pure {m : Win α} {ws : List Registry.Write} (hm : Stores env V m ws)
    (g : α → β) : Stores env V (m >>= fun a => Pure.pure (g a)) ws :=
  hm.bind_nil fun a => Stores.pure (g a)

theorem Stores.nil_bind {m : Win α} {f : α → Win β} {ws : List Registry.Write}
    (hm : Stores env V m []) (hf : ∀ a, Stores env V (f a) ws) : Stores env V (m >>= f) ws :=
  hm.bind hf

theorem Stores.ite {c : Prop} [Decidable c] {m n : Win α} {ws : List Registry.Write}
    (hm : Stores env V m ws) (hn : Stores env V n ws) :
    Stores env V (if c then m else n) ws := by
  split
  · exact hm
  · exact hn

theorem Reads.forEach {f : α → Win β} {g : α → β} {as : List α}
    (h : ∀ a ∈ as, Reads env V (f a) (g a)) : Reads env V (forEach f as) (as.map g) := by
  induction as with
  | nil => exact Reads.pure _
  | cons a as ih =>
    refine (h a (by simp)).bind ((ih fun b hb => h b (by simp [hb])).bind ?_)
    exact Reads.pure _

theorem Stores.forEach {f : α → Win β} {ws : α → List Registry.Write} {as : List α}
    (h : ∀ a ∈ as, Stores env V (f a) (ws a)) : Stores env V (forEach f as) (as.flatMap ws) := by
  induction as with
  | nil => exact Stores.pure _
  | cons a as ih =>
    refine (h a (by simp)).bind fun b => ?_
    exact (ih fun c hc => h c (by simp [hc])).bind_pure _

theorem Stores.forEach_nil {f : α → Win β} {as : List α} (h : ∀ a ∈ as, Stores env V (f a) []) :
    Stores env V (Host.forEach f as) [] := by
  induction as with
  | nil => exact Stores.pure _
  | cons a as ih =>
    refine (h a (by simp)).nil_bind fun b => ?_
    exact (ih fun c hc => h c (by simp [hc])).bind_pure _

/-! The calls. -/

section Calls

variable (ok : env.AllSucceed)

include ok

theorem call_run (w : World) : call env w = (true, { w with calls := w.calls + 1 }) := by
  rw [call, ok w.calls]

theorem call_reads : Reads env V call true := by
  intro w hw
  rw [call_run ok]
  exact ⟨rfl, rfl⟩

theorem callIf_reads (ready : Bool) : Reads env V (callIf ready) ready := by
  cases ready with
  | false => exact Reads.pure _
  | true => exact call_reads ok

theorem storeValue_run (key name : String) (value : RegValue) (w : World) :
    storeValue key name value env w = (true, { w with
      registry := w.registry.apply ⟨key, name, value⟩
      written := w.written ++ [⟨key, name, value⟩]
      calls := w.calls + 2 }) := by
  simp [storeValue, regCreateKeyEx, regSetValueEx, call_run ok, Registry.apply]

theorem regOpenKeyEx_run (key : String) (w : World) : regOpenKeyEx key env w =
    (decide (w.registry.HasKey (path key)), { w with calls := w.calls + 1 }) := by
  simp [regOpenKeyEx, call_run ok]

/-- The value read, when it fits the buffer. -/
theorem queryValue_run (key name : String) (size : ℕ) (w : World) :
    (queryValue key name size env w).1 =
        (w.registry.find key name).filter (fun v => v.data.length ≤ size) ∧
      Quiet w (queryValue key name size env w).2 := by
  unfold queryValue
  rw [bind_run, regOpenKeyEx_run ok]
  by_cases hkey : w.registry.HasKey (path key)
  · simp [hkey, regQueryValueEx, call_run ok]
    rfl
  · have hnone : w.registry.find key name = none := by
      by_contra hsome
      exact hkey (w.registry.owned _ _ hsome)
    simp [hkey, hnone]
    rfl

theorem queryValue_reads {key name : String} {size : ℕ} {v : Option RegValue}
    (hv : ∀ r, V r → r.find key name = v) :
    Reads env V (queryValue key name size) (v.filter fun v => v.data.length ≤ size) := by
  intro w hw
  rw [← hv _ hw]
  exact queryValue_run ok key name size w

theorem getDword_run (key name : String) (w : World) :
    (getDword key name env w).1 =
        ((w.registry.find key name).filter fun v => v.data.length ≤ 4).bind dwordOf ∧
      Quiet w (getDword key name env w).2 := by
  obtain ⟨hvalue, hquiet⟩ := queryValue_run ok key name 4 w
  exact ⟨congrArg (fun v => v.bind dwordOf) hvalue, hquiet⟩

theorem getDword_reads {key name : String} {v : Option RegValue}
    (hv : ∀ r, V r → r.find key name = v) :
    Reads env V (getDword key name) ((v.filter fun v => v.data.length ≤ 4).bind dwordOf) :=
  (queryValue_reads ok hv).bind (Reads.pure _)

theorem getString_reads {key name : String} {v : Option RegValue}
    (hv : ∀ r, V r → r.find key name = v) :
    Reads env V (getString key name) ((v.filter fun v => v.data.length ≤ 1024).bind stringOf) :=
  (queryValue_reads ok hv).bind (Reads.pure _)

theorem enumerateFrom_reads (ks : List KeyName) :
    Reads env V (enumerateFrom ks) (ks.map KeyName.text) := by
  induction ks with
  | nil => exact (call_reads ok).bind (Reads.pure _)
  | cons k ks ih =>
    refine (call_reads ok).bind ?_
    exact ih.bind (Reads.pure _)

/-- A key that is not there has no subkeys, so opening it first changes nothing. -/
theorem enumerateSubKeys_run (key : String) (w : World) :
    (enumerateSubKeys key env w).1 = (w.registry.subKeys (path key)).map KeyName.text ∧
      Quiet w (enumerateSubKeys key env w).2 := by
  unfold enumerateSubKeys
  rw [bind_run, regOpenKeyEx_run ok]
  by_cases hkey : w.registry.HasKey (path key)
  · have hread := enumerateFrom_reads (V := fun _ => True) ok (w.registry.subKeys (path key))
    obtain ⟨hnames, hquiet⟩ := hread { w with calls := w.calls + 1 } trivial
    simp only [hkey, decide_true, if_true, bind_run, look_run]
    exact ⟨hnames, hquiet⟩
  · have hnil : w.registry.subKeys (path key) = [] := by
      refine List.eq_nil_iff_forall_not_mem.mpr fun n hn => hkey ?_
      exact w.registry.rooted _ (w.registry.mem_subKeys.mp hn)
    simp [hkey, hnil]
    rfl

theorem enumerateSubKeys_reads {key : String} {ks : List KeyName}
    (hks : ∀ r, V r → r.subKeys (path key) = ks) :
    Reads env V (enumerateSubKeys key) (ks.map KeyName.text) := by
  intro w hw
  rw [← hks _ hw]
  exact enumerateSubKeys_run ok key w

theorem runCommand_run (cmd : String) (w : World) : (runCommand cmd env w).2 =
    effect (command cmd)
      { w with commands := w.commands ++ [cmd], calls := w.calls + 1 } := by
  simp [runCommand, call_run ok]

omit ok in
theorem effect_stored {line : List Word} (h : regAddition line = none) (w : World) :
    Stored w (effect line w) [] := by
  unfold effect
  rw [h]
  split
  · exact ⟨rfl, (List.append_nil _).symm, rfl⟩
  · contradiction
  · exact ⟨rfl, (List.append_nil _).symm, rfl⟩

/-- A command other than `reg add` stores no registry value. -/
theorem runCommand_stores {cmd : String} (h : regAddition (command cmd) = none) :
    Stores env V (runCommand cmd) [] := by
  intro w hw
  rw [runCommand_run ok]
  obtain ⟨hregistry, hwritten, hfiles⟩ := effect_stored h
    { w with commands := w.commands ++ [cmd], calls := w.calls + 1 }
  refine ⟨⟨hregistry, hwritten, hfiles⟩, ?_⟩
  rw [hregistry]
  exact hw

/-- The settings a list of netsh commands gives, in order. -/
def netshAssignments (cmds : List String) : List (NetshSetting × Word) :=
  cmds.filterMap fun cmd => netshAssignment (command cmd)

/-- netsh commands change their settings only. -/
theorem system_netsh {cmds : List String}
    (h : ∀ cmd ∈ cmds, (netshAssignment (command cmd)).isSome) (w : World) :
    (forEach system cmds env w).2.registry = w.registry ∧
      (forEach system cmds env w).2.netsh = overlay w.netsh (netshAssignments cmds) := by
  induction cmds generalizing w with
  | nil => exact ⟨rfl, rfl⟩
  | cons cmd cmds ih =>
    obtain ⟨a, ha⟩ := Option.isSome_iff_exists.mp (h cmd (by simp))
    have hfirst : (system cmd env w).2 = setNetsh
        { w with commands := w.commands ++ [cmd], calls := w.calls + 1 } a := by
      simp only [system, bind_run, pure_run, runCommand_run ok, effect, ha]
    obtain ⟨hregistry, hnetsh⟩ := ih (fun c hc => h c (by simp [hc])) (system cmd env w).2
    have hassign : netshAssignments (cmd :: cmds) = a :: netshAssignments cmds := by
      simp [netshAssignments, ha]
    rw [hassign]
    simp only [forEach, bind_run, pure_run]
    rw [hregistry, hnetsh, hfirst]
    exact ⟨rfl, rfl⟩

/-- A `reg add` command makes its write and keeps the netsh settings. -/
theorem system_reg {cmd : String} {write : Registry.Write}
    (h : regAddition (command cmd) = some write) (hnetsh : netshAssignment (command cmd) = none)
    (w : World) : (system cmd env w).2.registry = w.registry.apply write ∧
      (system cmd env w).2.netsh = w.netsh := by
  have hrun : (system cmd env w).2 =
      { w with
        commands := w.commands ++ [cmd]
        calls := w.calls + 1
        registry := w.registry.apply write } := by
    simp only [system, bind_run, pure_run, runCommand_run ok, effect, h, hnetsh]
  rw [hrun]
  exact ⟨rfl, rfl⟩

theorem system_stores {cmd : String} (h : regAddition (command cmd) = none) :
    Stores env V (system cmd) [] :=
  (runCommand_stores ok h).bind_pure _

end Calls

end Disping.Host
