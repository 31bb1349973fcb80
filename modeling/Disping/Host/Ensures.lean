import Disping.Host.Console

/-! # What an action ensures whatever the system answers

The invariant rules of the actions. Any call may fail here; a failed call takes its number and
changes nothing else.
-/
namespace Disping.Host

open Hive

variable {α β : Type} {env : Environment} {I : World → Prop} {P : α → Prop} {Q : β → Prop}

/-- From a world with the invariant the action ends in one, with a result as told. -/
def Ensures (env : Environment) (I : World → Prop) (m : Win α) (P : α → Prop) : Prop :=
  ∀ w, I w → P (m env w).1 ∧ I (m env w).2

def Keeps (env : Environment) (I : World → Prop) (m : Win α) : Prop :=
  Ensures env I m fun _ => True

/-- The invariant does not look at the number of the next call. -/
def Numberless (I : World → Prop) : Prop := ∀ w n, I w → I { w with calls := n }

theorem Ensures.pure {a : α} (h : P a) : Ensures env I (pure a) P := fun _ hw => ⟨h, hw⟩

theorem Ensures.bind {m : Win α} {f : α → Win β} (hm : Ensures env I m P)
    (hf : ∀ a, P a → Ensures env I (f a) Q) : Ensures env I (m >>= f) Q := by
  intro w hw
  obtain ⟨ha, hw'⟩ := hm w hw
  exact hf _ ha _ hw'

theorem Ensures.keeps {m : Win α} (h : Ensures env I m P) : Keeps env I m :=
  fun w hw => ⟨trivial, (h w hw).2⟩

theorem Ensures.imp {m : Win α} {P' : α → Prop} (h : Ensures env I m P) (himp : ∀ a, P a → P' a) :
    Ensures env I m P' :=
  fun w hw => ⟨himp _ (h w hw).1, (h w hw).2⟩

theorem Ensures.ite {c : Prop} [Decidable c] {m n : Win α} (hm : c → Ensures env I m P)
    (hn : ¬ c → Ensures env I n P) : Ensures env I (if c then m else n) P := by
  split
  · exact hm ‹_›
  · exact hn ‹_›

theorem Keeps.pure (a : α) : Keeps env I (Pure.pure a) := Ensures.pure trivial

theorem Keeps.bind {m : Win α} {f : α → Win β} (hm : Keeps env I m)
    (hf : ∀ a, Ensures env I (f a) Q) : Ensures env I (m >>= f) Q :=
  Ensures.bind hm fun a _ => hf a

theorem Ensures.forEach {f : α → Win β} {as : List α} (h : ∀ a ∈ as, Ensures env I (f a) Q) :
    Ensures env I (forEach f as) fun bs => ∀ b ∈ bs, Q b := by
  induction as with
  | nil => exact Ensures.pure (by simp)
  | cons a as ih =>
    refine (h a (by simp)).bind fun b hb => ?_
    refine (ih fun c hc => h c (by simp [hc])).bind fun bs hbs => ?_
    exact Ensures.pure (List.forall_mem_cons.mpr ⟨hb, hbs⟩)

theorem Keeps.forEach {f : α → Win β} {as : List α} (h : ∀ a ∈ as, Keeps env I (f a)) :
    Keeps env I (forEach f as) :=
  (Ensures.forEach h).keeps

section Calls

variable (hI : Numberless I)

include hI

theorem Ensures.call : Keeps env I call := fun w hw => ⟨trivial, hI w _ hw⟩

theorem Ensures.callIf (ready : Bool) : Keeps env I (callIf ready) := by
  cases ready with
  | false => exact Keeps.pure _
  | true => exact Ensures.call hI

theorem Ensures.regOpenKeyEx (key : String) : Keeps env I (regOpenKeyEx key) := by
  refine (Ensures.call hI).bind fun ok => Ensures.ite (fun _ => ?_) fun _ => Keeps.pure _
  exact fun w hw => ⟨trivial, hw⟩

/-- A value read is the one the key holds. -/
theorem Ensures.queryValue {key name : String} {size : ℕ} {P : Option RegValue → Prop}
    (hnone : P none) (hsome : ∀ w, I w →
      P ((w.registry.find key name).filter fun v => v.data.length ≤ size)) :
    Ensures env I (queryValue key name size) P := by
  refine (Ensures.regOpenKeyEx hI key).bind fun opened => Ensures.ite (fun _ => ?_) fun _ =>
    Ensures.pure hnone
  refine Ensures.bind (P := fun v => P (v.filter fun v => v.data.length ≤ size)) ?_ fun v hv =>
    Ensures.pure hv
  refine (Ensures.call hI).bind fun ok => Ensures.ite (fun _ => ?_) fun _ => Ensures.pure hnone
  exact fun w hw => ⟨hsome w hw, hw⟩

theorem Ensures.getString {key name : String} {P : Option String → Prop} (hnone : P none)
    (hsome : ∀ w, I w →
      P (((w.registry.find key name).filter fun v => v.data.length ≤ 1024).bind stringOf)) :
    Ensures env I (getString key name) P := by
  refine Ensures.bind (P := fun v => P (v.bind stringOf)) ?_ fun v hv => Ensures.pure hv
  exact Ensures.queryValue hI hnone hsome

theorem Ensures.enumerateFrom (ks : List KeyName) :
    Ensures env I (enumerateFrom ks) fun names => names <+: ks.map KeyName.text := by
  induction ks with
  | nil =>
    refine (Ensures.call hI).bind fun _ => Ensures.pure ?_
    exact List.nil_prefix
  | cons k ks ih =>
    refine (Ensures.call hI).bind fun ok => Ensures.ite (fun _ => ?_) fun _ =>
      Ensures.pure List.nil_prefix
    refine ih.bind fun names hnames => Ensures.pure ?_
    rw [List.map_cons, List.prefix_cons_inj]
    exact hnames

/-- The names listed are those of subkeys, the first of them. -/
theorem Ensures.enumerateSubKeys {key : String} {P : List String → Prop} (hnil : P [])
    (hsome : ∀ w, I w → ∀ names, names <+: (w.registry.subKeys (path key)).map KeyName.text →
      P names) :
    Ensures env I (enumerateSubKeys key) P := by
  refine (Ensures.regOpenKeyEx hI key).bind fun opened => Ensures.ite (fun _ => ?_) fun _ =>
    Ensures.pure hnil
  refine Ensures.bind (P := fun ks => ∀ names, names <+: ks.map KeyName.text → P names)
    (fun w hw => ⟨hsome w hw, hw⟩) fun ks hks => ?_
  exact fun w hw => ⟨hks _ (Ensures.enumerateFrom hI ks w hw).1,
    (Ensures.enumerateFrom hI ks w hw).2⟩

/-- A store makes the key when it opens it, and sets the value when the second call succeeds. -/
theorem Ensures.storeValue {key name : String} {value : RegValue}
    (hcreate : ∀ w, I w → I { w with registry := w.registry.create (components key) })
    (hset : ∀ w, I w → I { w with
      registry := w.registry.setValue (path key) (fold name) value
      written := w.written ++ [⟨key, name, value⟩] }) :
    Keeps env I (storeValue key name value) := by
  refine Keeps.bind ?_ fun opened => Ensures.ite (fun _ => ?_) fun _ => Keeps.pure _
  · refine (Ensures.call hI).bind fun ok => Ensures.ite (fun _ => ?_) fun _ => Keeps.pure _
    exact Keeps.bind (fun w hw => ⟨trivial, hcreate w hw⟩) fun _ => Keeps.pure _
  · refine (Ensures.call hI).bind fun ok => Ensures.ite (fun _ => ?_) fun _ => Keeps.pure _
    exact Keeps.bind (fun w hw => ⟨trivial, hset w hw⟩) fun _ => Keeps.pure _

/-- A command that the invariant admits, with or without its effect. -/
theorem Ensures.runCommand {cmd : String}
    (hstart : ∀ w, I w → I { w with commands := w.commands ++ [cmd] })
    (heffect : ∀ w, I w → I (effect (command cmd) w)) :
    Keeps env I (runCommand cmd) := by
  refine Keeps.bind (fun w hw => ⟨trivial, hw⟩) fun number => ?_
  refine Keeps.bind (fun w hw => ⟨trivial, hstart w hw⟩) fun _ => ?_
  refine (Ensures.call hI).bind fun ok => Ensures.ite (fun _ => ?_) fun _ => Keeps.pure _
  refine Keeps.bind (fun w hw => ⟨trivial, heffect w hw⟩) fun _ => ?_
  exact fun w hw => ⟨trivial, hw⟩

end Calls

/-- A command other than `reg add` changes netsh settings at most. -/
theorem effect_registry {line : List Word} (h : regAddition line = none) (w : World) :
    (effect line w).registry = w.registry := by
  unfold effect
  rw [h]
  split
  · rfl
  · contradiction
  · rfl

end Disping.Host
