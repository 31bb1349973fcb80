import Disping.Links.DnsOptimizer
import Disping.Links.MtuOptimizer

/-! # Interface names on the command lines

The interpreter goes in and out of quotation at every quotation mark and takes a backslash as any
other character. The commands open one quotation before netsh and write two characters, a backslash
and a quotation mark, before the interface's name, which closes it.
-/
namespace Disping.Links

open Host Tweaks Shield

/-- Whether the interpreter is inside quotation marks after a text. -/
def quoteState (q : Bool) (cs : List Char) : Bool :=
  cs.foldl (fun q c => if c = '"' then !q else q) q

theorem quoteState_append (q : Bool) (s t : List Char) :
    quoteState q (s ++ t) = quoteState (quoteState q s) t :=
  List.foldl_append

theorem quoteState_of_not_mem {s : List Char} (h : '"' ∉ s) (q : Bool) : quoteState q s = q := by
  induction s with
  | nil => rfl
  | cons c s ih =>
    have hc : c ≠ '"' := fun heq => h (heq ▸ List.mem_cons_self)
    have hs : '"' ∉ s := fun hmem => h (List.mem_cons_of_mem c hmem)
    rw [quoteState, List.foldl_cons, if_neg hc]
    exact ih hs

theorem quoteState_literal {s : String} {cs : List Char} {q : Bool} (h : s = String.ofList cs)
    (hcs : quoteState false cs = q) : quoteState false s.toList = q := by
  rw [h, String.toList_ofList, hcs]

/-- Wherever the builder puts the name, each of its characters is read inside quotation marks. -/
def NameQuoted (build : String → String) (name : String) : Prop :=
  ∀ before after, (∀ s, build s = before ++ s ++ after) → ∀ a c b, name.toList = a ++ c :: b →
    quoteState false (before.toList ++ a) = true

/-- The command lines an action adds to those started before. -/
def issued {α : Type} (m : Win α) (env : Environment) (w : World) : List String :=
  (m env w).2.commands.drop w.commands.length

/-- If the builder's line for the name was issued, the name is quoted in it. -/
def QuotesName (build : String → String) (name : String) (lines : List String) : Prop :=
  build name ∈ lines → NameQuoted build name

/-- A builder that puts the name after a text with an even number of quotation marks. -/
structure Unquoting (build : String → String) where
  before : String
  after : String
  split : ∀ s, build s = before ++ s ++ after
  closed : quoteState false before.toList = false

/-- A name without quotation marks is read outside them, each of its characters. -/
theorem Unquoting.outside {build : String → String} (h : Unquoting build) {name : String}
    (hquote : '"' ∉ name.toList) {a b : List Char} {c : Char} (hname : name.toList = a ++ c :: b) :
    quoteState false (h.before.toList ++ a) = false := by
  have ha : '"' ∉ a := fun hmem => hquote (hname ▸ List.mem_append_left _ hmem)
  rw [quoteState_append, h.closed, quoteState_of_not_mem ha]

theorem Unquoting.not_nameQuoted {build : String → String} (h : Unquoting build) {name : String}
    (hne : name ≠ "") (hquote : '"' ∉ name.toList) : ¬ NameQuoted build name := by
  intro hquoted
  obtain ⟨c, cs, hname⟩ := List.exists_cons_of_ne_nil (fun h => hne (String.toList_eq_nil_iff.mp h))
  have hinside := hquoted h.before h.after h.split [] c cs hname
  rw [h.outside hquote hname] at hinside
  exact Bool.false_ne_true hinside

theorem append_split (a b c d e : String) : a ++ b ++ c ++ d ++ e = a ++ b ++ (c ++ d ++ e) := by
  simp only [String.append_assoc]

def setSubinterface_unquoting (mtu : BitVec 32) :
    Unquoting fun name => setSubinterface name mtu where
  before := "cmd.exe /c \"netsh interface ipv4 set subinterface \\\""
  after := "\\\" mtu=" ++ toString mtu.toNat ++ " store=persistent\" > nul 2>&1"
  split name := append_split _ name _ _ _
  closed := quoteState_literal rfl rfl

def setPrimaryDns_unquoting (primary : String) :
    Unquoting fun name => setPrimaryDns name primary where
  before := "cmd.exe /c \"netsh interface ipv4 set dnsservers name=\\\""
  after := "\\\" static " ++ primary ++ " primary\" > nul 2>&1"
  split name := append_split _ name _ _ _
  closed := quoteState_literal rfl rfl

def addSecondaryDns_unquoting (secondary : String) :
    Unquoting fun name => addSecondaryDns name secondary where
  before := "cmd.exe /c \"netsh interface ipv4 add dnsservers name=\\\""
  after := "\\\" " ++ secondary ++ " index=2\" > nul 2>&1"
  split name := append_split _ name _ _ _
  closed := quoteState_literal rfl rfl

/-! The runs. -/

section Runs
variable {env : Environment} {w : World} {name : String}

theorem issued_applyMtuToInterface (mtu : BitVec 32) :
    issued (applyMtuToInterface name mtu) env w =
      if isVirtualOrVpnAdapter name "" then [] else [setSubinterface name mtu] := by
  cases hvpn : isVirtualOrVpnAdapter name "" with
  | true => simp [issued, applyMtuToInterface, hvpn]
  | false =>
    cases hnetsh : env.succeeds w.calls <;>
      simp [issued, applyMtuToInterface, hvpn, systemReturnsZero, call, hnetsh]

theorem issued_setDnsServers (primary secondary : String) :
    issued (setDnsServers name primary secondary) env w =
      if isVirtualOrVpnAdapter name "" then []
      else [setPrimaryDns name primary, addSecondaryDns name secondary, flushDns] := by
  cases hvpn : isVirtualOrVpnAdapter name "" with
  | true => simp [issued, setDnsServers, hvpn]
  | false =>
    cases hret : env.succeeds w.calls <;>
      simp [issued, setDnsServers, hvpn, systemReturnsZero, flushDnsCache, call, hret]

/-- The name is quoted in the lines of both operations exactly when the shield skips it, so that
there are none. -/
theorem quotesName_iff (hne : name ≠ "") (hquote : '"' ∉ name.toList) (mtu : BitVec 32)
    (primary secondary : String) :
    (QuotesName (fun s => setSubinterface s mtu) name
        (issued (applyMtuToInterface name mtu) env w) ↔ isVirtualOrVpnAdapter name "" = true) ∧
      (QuotesName (fun s => setPrimaryDns s primary) name
        (issued (setDnsServers name primary secondary) env w) ↔
          isVirtualOrVpnAdapter name "" = true) ∧
      (QuotesName (fun s => addSecondaryDns s secondary) name
        (issued (setDnsServers name primary secondary) env w) ↔
          isVirtualOrVpnAdapter name "" = true) := by
  rw [issued_applyMtuToInterface, issued_setDnsServers]
  cases hvpn : isVirtualOrVpnAdapter name "" with
  | true =>
    have hnone : ∀ build, QuotesName build name [] := fun build hline =>
      absurd hline List.not_mem_nil
    exact ⟨iff_of_true (hnone _) rfl, iff_of_true (hnone _) rfl, iff_of_true (hnone _) rfl⟩
  | false =>
    have hunquoted : ∀ {build : String → String} {lines : List String}, Unquoting build →
        build name ∈ lines → (QuotesName build name lines ↔ false = true) :=
      fun hbuild hline =>
        iff_of_false (fun h => hbuild.not_nameQuoted hne hquote (h hline)) Bool.false_ne_true
    refine ⟨hunquoted (setSubinterface_unquoting mtu) ?_, hunquoted (setPrimaryDns_unquoting primary) ?_,
      hunquoted (addSecondaryDns_unquoting secondary) ?_⟩
    · exact List.mem_singleton_self _
    · exact List.mem_cons_self
    · exact List.mem_cons_of_mem _ List.mem_cons_self

end Runs

theorem quotesName_ampersand :
    ¬ QuotesName (fun s => setSubinterface s 1492) "LAN & Guest"
      (issued (applyMtuToInterface "LAN & Guest" 1492) netshWorks (machineWithMtu 1500)) ∧
    ¬ QuotesName (fun s => setPrimaryDns s "1.1.1.1") "LAN & Guest"
      (issued (setDnsServers "LAN & Guest" "1.1.1.1" "1.0.0.1") netshWorks (machineWithMtu 1500)) ∧
    ¬ QuotesName (fun s => addSecondaryDns s "1.0.0.1") "LAN & Guest"
      (issued (setDnsServers "LAN & Guest" "1.1.1.1" "1.0.0.1") netshWorks (machineWithMtu 1500)) := by
  have hplain : ¬ isVirtualOrVpnAdapter "LAN & Guest" "" = true := by decide
  obtain ⟨hmtu, hprimary, hsecondary⟩ := @quotesName_iff netshWorks (machineWithMtu 1500) "LAN & Guest"
    (by decide) (by decide) 1492 "1.1.1.1" "1.0.0.1"
  exact ⟨fun h => hplain (hmtu.mp h), fun h => hplain (hprimary.mp h), fun h => hplain (hsecondary.mp h)⟩

/-- The ampersand of an interface's name is outside quotation marks. -/
theorem not_quotesName_ampersand : ¬ ∀ (env : Environment) (w : World) (name : String)
    (mtu : BitVec 32), name ≠ "" → '"' ∉ name.toList →
      QuotesName (fun s => setSubinterface s mtu) name
        (issued (applyMtuToInterface name mtu) env w) := by
  intro hall
  have hplain : isVirtualOrVpnAdapter "LAN & Guest" "" = false := by decide
  have hquoted := hall netshWorks (machineWithMtu 1500) "LAN & Guest" 1492 (by decide) (by decide)
  rw [issued_applyMtuToInterface, hplain] at hquoted
  exact (setSubinterface_unquoting 1492).not_nameQuoted (by decide) (by decide)
    (hquoted (List.mem_singleton_self _))

end Disping.Links
