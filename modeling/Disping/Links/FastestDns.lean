import Mathlib.Algebra.Order.Ring.Rat
import Mathlib.Tactic.NormNum
import Disping.Arithmetic.SortedHead
import Disping.Links.DnsOptimizer

/-! # Which provider the benchmark selects

A provider that never answers is sorted by the average 999, below what a slow one may reach, and the
first entry alone decides.
-/
namespace Disping.Links

open Host Tweaks Shield Arithmetic

/-- A provider with the latencies measured for it. -/
structure Measured where
  provider : DnsEntry
  samples : List ℚ

namespace Measured

/-- The samples that are not the mark of a missing answer. -/
def answered (m : Measured) : List ℚ := m.samples.filter fun lat => decide (lat ≠ 9999)

def Answers (m : Measured) : Prop := m.answered ≠ []

def average (m : Measured) : ℚ := m.answered.sum / m.answered.length

/-- Every sample is the mark or lies within the receive timeout. -/
def Valid (m : Measured) : Prop := ∀ lat ∈ m.samples, lat = 9999 ∨ 0 ≤ lat ∧ lat ≤ 1200

def result (m : Measured) : DnsBenchmarkResult :=
  let valid := m.samples.filter fun lat => decide (lat < 9000)
  { name := m.provider.name
    primaryIp := m.provider.primary
    secondaryIp := m.provider.secondary
    avgLatencyMs := if valid.length > 0 then valid.sum / valid.length else 999
    reachable := decide (valid.length > 0) }

variable {m : Measured}

theorem valid_filter (h : m.Valid) :
    m.samples.filter (fun lat => decide (lat < 9000)) = m.answered := by
  refine List.filter_congr fun lat hlat => ?_
  rcases h lat hlat with rfl | ⟨-, hle⟩
  · norm_num
  · have hlt : lat < 9000 := lt_of_le_of_lt hle (by norm_num)
    have hne : lat ≠ 9999 := by
      rintro rfl
      norm_num at hlt
    simp [hlt, hne]

theorem reachable_iff (h : m.Valid) : m.result.reachable = true ↔ m.Answers := by
  simp only [result, valid_filter h, decide_eq_true_eq, Answers]
  exact List.length_pos_iff

theorem avgLatencyMs_eq (h : m.Valid) (hanswers : m.Answers) :
    m.result.avgLatencyMs = m.average := by
  simp only [result, valid_filter h]
  exact if_pos (List.length_pos_iff.mpr hanswers)

theorem avgLatencyMs_silent (h : m.Valid) (hsilent : ¬ m.Answers) :
    m.result.avgLatencyMs = 999 := by
  simp only [result, valid_filter h]
  exact if_neg fun hpos => hsilent (List.length_pos_iff.mp hpos)

end Measured

/-- The samples of the providers in turn, the first one taken by the call `first`. -/
def latencyTable (ans : Answers) (iterations : ℕ) : ℕ → List DnsEntry → List Measured
  | _, [] => []
  | first, prov :: provs =>
    ⟨prov, (List.range iterations).map fun j => ans.latency (first + j) prov.primary⟩ ::
      latencyTable ans iterations (first + iterations) provs

theorem latencyTable_providers (ans : Answers) (iterations first : ℕ) (provs : List DnsEntry) :
    (latencyTable ans iterations first provs).map Measured.provider = provs := by
  induction provs generalizing first with
  | nil => rfl
  | cons prov provs ih => rw [latencyTable, List.map_cons, ih]

/-- The commands for one interface. -/
def dnsCommands (prov : DnsEntry) (nic : NetworkAdapterInfo) : List String :=
  [setPrimaryDns nic.name prov.primary, addSecondaryDns nic.name prov.secondary, flushDns]

section Runs
variable (env : Environment) (ans : Answers)

theorem query_forEach_run {α : Type} (f : ℕ → ℚ) (as : List α) (w : World) :
    forEach (fun _ => query f) as env w =
      ((List.range as.length).map fun j => f (w.calls + j),
        { w with calls := w.calls + as.length }) := by
  induction as generalizing w with
  | nil => rfl
  | cons a as ih =>
    have hfirst : query f env w = (f w.calls, { w with calls := w.calls + 1 }) := rfl
    rw [forEach, bind_run, bind_run, hfirst, ih, pure_run, List.length_cons, List.range_succ_eq_map,
      List.map_cons, List.map_map]
    simp [Nat.add_comm, Nat.add_left_comm, Function.comp_def]

theorem benchmarkProvider_run (iterations : ℕ) (prov : DnsEntry) (w : World) :
    benchmarkProvider ans iterations prov env w =
      (Measured.result ⟨prov, (List.range iterations).map fun j =>
        ans.latency (w.calls + j) prov.primary⟩, { w with calls := w.calls + iterations }) := by
  rw [benchmarkProvider, bind_run, query_forEach_run, List.length_range]
  rfl

theorem benchmark_forEach_run (iterations : ℕ) (provs : List DnsEntry) (w : World) :
    forEach (benchmarkProvider ans iterations) provs env w =
      ((latencyTable ans iterations w.calls provs).map Measured.result,
        { w with calls := w.calls + provs.length * iterations }) := by
  induction provs generalizing w with
  | nil => simp [forEach, latencyTable]
  | cons prov provs ih =>
    rw [forEach, bind_run, bind_run, benchmarkProvider_run, ih, pure_run, latencyTable,
      List.map_cons, List.length_cons]
    simp only [Nat.succ_mul, Nat.add_assoc, Nat.add_comm iterations]

theorem isShielded_run (w : World)
    (hactive : isVpnOrDpiBypassActive (ans.view w.calls) = false)
    (hfake : hasFakeIpOrVpnDns (ans.view (w.calls + 1)) = false) :
    isShielded ans env w = (false, { w with calls := w.calls + 2 }) := by
  simp [isShielded, query, call, hactive, hfake]

theorem setDnsServers_run (prov : DnsEntry) (nic : NetworkAdapterInfo)
    (h : isVirtualOrVpnAdapter nic.name "" = false) (w : World) :
    (setDnsServers nic.name prov.primary prov.secondary env w).2.commands =
      w.commands ++ dnsCommands prov nic := by
  cases hret : env.succeeds w.calls <;>
    simp [setDnsServers, h, systemReturnsZero, flushDnsCache, call, dnsCommands, hret]

theorem setDns_forEach_run (prov : DnsEntry) {nics : List NetworkAdapterInfo}
    (hnics : ∀ nic ∈ nics, isVirtualOrVpnAdapter nic.name "" = false) (w : World) :
    (forEach (fun nic => setDnsServers nic.name prov.primary prov.secondary) nics env w).2.commands =
      w.commands ++ nics.flatMap (dnsCommands prov) := by
  induction nics generalizing w with
  | nil => simp [forEach]
  | cons nic nics ih =>
    have hrest := ih (fun other hother => hnics other (List.mem_cons_of_mem _ hother))
      (setDnsServers nic.name prov.primary prov.secondary env w).2
    rw [setDnsServers_run env prov nic (hnics nic (List.mem_cons_self ..))] at hrest
    rw [List.flatMap_cons, ← List.append_assoc]
    exact hrest

theorem configureBest_run (m : Measured) (w : World) (hphysical : physicalAdapters ans w.calls ≠ []) :
    (configureBest ans m.result env w).1.message ≠ "No reachable DNS providers found." ∧
      (configureBest ans m.result env w).2.commands = w.commands ++
        (physicalAdapters ans w.calls).flatMap (dnsCommands m.provider) := by
  have hlisted : (getActiveAdapters ans env w).1 ≠ [] := by
    intro hnil
    rw [getActiveAdapters_run] at hnil
    exact hphysical (congrArg (List.filter NetworkAdapterInfo.isPhysical) hnil)
  have hset := @setDns_forEach_run env m.provider (physicalAdapters ans w.calls)
    (fun _ hnic => not_isVirtual_of_mem hnic) { w with calls := w.calls + 1 }
  have hmessage : ∀ tail : String, "Fastest DNS selected: " ++ tail ≠ "No reachable DNS providers found." := by
    intro tail heq
    have hhead := congrArg (fun text => text.toList.head?) heq
    simp at hhead
  rw [configureBest, bind_run, if_neg (by simpa using hlisted), bind_run, pure_run]
  exact ⟨by simpa only [String.append_assoc] using hmessage _, hset⟩

variable {env ans}

/-- No VPN is detected, and the query for the adapters lists a physical one. -/
structure Ready (ans : Answers) (iterations : ℕ) (w : World) : Prop where
  active : isVpnOrDpiBypassActive (ans.view w.calls) = false
  fakeIp : hasFakeIpOrVpnDns (ans.view (w.calls + 1)) = false
  physical : physicalAdapters ans (w.calls + 2 + dnsProviders.length * iterations) ≠ []

/-- The latencies of a selection that starts in the world. -/
def latencies (ans : Answers) (iterations : ℕ) (w : World) : List Measured :=
  latencyTable ans iterations (w.calls + 2) dnsProviders

theorem results_nodup (iterations : ℕ) (w : World) :
    ((latencies ans iterations w).map Measured.result).Nodup := by
  have hnames : ((latencies ans iterations w).map Measured.result).map DnsBenchmarkResult.name =
      dnsProviders.map DnsEntry.name := by
    rw [← latencyTable_providers ans iterations (w.calls + 2) dnsProviders, List.map_map,
      List.map_map]
    rfl
  refine List.Nodup.of_map DnsBenchmarkResult.name ?_
  rw [hnames]
  decide

/-- The first of the sorted results, and what follows from it. -/
theorem selectFastest_run {iterations : ℕ} {w : World} (h : Ready ans iterations w) :
    ∃ m ∈ latencies ans iterations w, ∃ rest,
      ((latencies ans iterations w).map Measured.result).mergeSort
        (fun a b => decide (a.avgLatencyMs ≤ b.avgLatencyMs)) = m.result :: rest ∧
      if m.result.reachable then
        (selectFastest ans iterations env w).1.message ≠ "No reachable DNS providers found." ∧
          (selectFastest ans iterations env w).2.commands = w.commands ++
            (physicalAdapters ans (w.calls + 2 + dnsProviders.length * iterations)).flatMap
              (dnsCommands m.provider)
      else
        (selectFastest ans iterations env w).1.message = "No reachable DNS providers found." ∧
          (selectFastest ans iterations env w).2.commands = w.commands := by
  obtain ⟨best, rest, hsorted⟩ : ∃ best rest,
      ((latencies ans iterations w).map Measured.result).mergeSort
        (fun a b => decide (a.avgLatencyMs ≤ b.avgLatencyMs)) = best :: rest := by
    refine List.exists_cons_of_ne_nil fun hnil => ?_
    have hlength := congrArg List.length hnil
    simp [latencies, latencyTable, dnsProviders] at hlength
  have hbest : best ∈ (latencies ans iterations w).map Measured.result := by
    rw [← List.mem_mergeSort, hsorted]
    exact List.mem_cons_self ..
  obtain ⟨m, hm, rfl⟩ := List.mem_map.mp hbest
  refine ⟨m, hm, rest, hsorted, ?_⟩
  have hshield := isShielded_run env ans w h.active h.fakeIp
  have hbench : benchmarkDnsProviders ans iterations env { w with calls := w.calls + 2 } =
      (m.result :: rest,
        { w with calls := w.calls + 2 + dnsProviders.length * iterations }) := by
    rw [benchmarkDnsProviders, bind_run, benchmark_forEach_run, pure_run, ← hsorted]
    rfl
  unfold selectFastest
  rw [bind_run, hshield]
  simp only [Bool.false_eq_true, if_false, bind_run, hbench]
  cases hreachable : m.result.reachable with
  | false => exact ⟨rfl, rfl⟩
  | true => exact configureBest_run env ans m _ h.physical

end Runs

/-- A fastest provider that answers is configured on the interfaces, and none is reported reachable
only where none answers. -/
structure SelectsFastest (table : List Measured) (nics : List NetworkAdapterInfo) (w : World)
    (r : OperationResult × World) : Prop where
  configures : (∃ m ∈ table, m.Answers) → ∃ m ∈ table, m.Answers ∧
    (∀ other ∈ table, other.Answers → m.average ≤ other.average) ∧
    r.2.commands = w.commands ++ nics.flatMap (dnsCommands m.provider)
  reports : r.1.message = "No reachable DNS providers found." → ∀ m ∈ table, ¬ m.Answers

/-- A provider answers faster than 999 ms on average, or in just 999 ms where no silent provider
stands before it, unless there is no silent provider. -/
def BeatsSilence (table : List Measured) : Prop :=
  ∃ before m after, table = before ++ m :: after ∧ m.Answers ∧
    (∀ u ∈ before, ¬ u.Answers → m.average < 999) ∧
    ∀ u ∈ after, ¬ u.Answers → m.average ≤ 999

section Selection
variable {table : List Measured} {m : Measured} {rest : List DnsBenchmarkResult}
variable (hvalid : ∀ m ∈ table, m.Valid) (hm : m ∈ table)
variable (hnodup : (table.map Measured.result).Nodup)
variable (hsorted : (table.map Measured.result).mergeSort
  (fun a b => decide (a.avgLatencyMs ≤ b.avgLatencyMs)) = m.result :: rest)
include hvalid hm hsorted

/-- Where the head of the sorted list answers, no provider that answers is faster. -/
theorem head_average_le (hanswers : m.Answers) {other : Measured} (hother : other ∈ table)
    (hanswers' : other.Answers) : m.average ≤ other.average := by
  have hle := sorted_head_le hsorted (List.mem_map_of_mem hother)
  rwa [Measured.avgLatencyMs_eq (hvalid m hm) hanswers,
    Measured.avgLatencyMs_eq (hvalid other hother) hanswers'] at hle

include hnodup

theorem head_answers_iff : m.Answers ↔ BeatsSilence table := by
  constructor
  · intro hanswers
    obtain ⟨before, after, rfl⟩ := List.append_of_mem hm
    have hkey := Measured.avgLatencyMs_eq (hvalid m hm) hanswers
    refine ⟨before, m, after, rfl, hanswers, ?_, ?_⟩
    · intro u hu hsilent
      have hmem : u ∈ before ++ m :: after := List.mem_append_left _ hu
      have hpair : List.Sublist [u.result, m.result]
          ((before ++ m :: after).map Measured.result) := by
        have hsub : List.Sublist [u, m] (before ++ m :: after) :=
          (List.singleton_sublist.mpr hu).append (List.singleton_sublist.mpr (List.mem_cons_self ..))
        exact hsub.map Measured.result
      have hlt := sorted_head_lt hnodup hsorted hpair
      rwa [hkey, Measured.avgLatencyMs_silent (hvalid u hmem) hsilent] at hlt
    · intro u hu hsilent
      have hmem : u ∈ before ++ m :: after :=
        List.mem_append_right _ (List.mem_cons_of_mem _ hu)
      have hle := sorted_head_le hsorted (List.mem_map_of_mem hmem)
      rwa [hkey, Measured.avgLatencyMs_silent (hvalid u hmem) hsilent] at hle
  · rintro ⟨before, fast, after, rfl, hanswers, hbefore, hafter⟩
    by_contra hsilent
    have hfast : fast ∈ before ++ fast :: after := List.mem_append_right _ (List.mem_cons_self ..)
    have hkey := Measured.avgLatencyMs_eq (hvalid fast hfast) hanswers
    have hkey' := Measured.avgLatencyMs_silent (hvalid m hm) hsilent
    have hle := sorted_head_le hsorted (List.mem_map_of_mem hfast)
    rw [hkey, hkey'] at hle
    rcases List.mem_append.mp hm with hfirst | hlast
    · exact absurd (hbefore m hfirst hsilent) (not_lt.mpr hle)
    · rcases List.mem_cons.mp hlast with rfl | hlast
      · exact hsilent hanswers
      · have hpair : List.Sublist [fast.result, m.result]
            ((before ++ fast :: after).map Measured.result) := by
          have hsub : List.Sublist [fast, m] (before ++ fast :: after) :=
            ((List.singleton_sublist.mpr hlast).cons_cons fast).trans
              (List.sublist_append_right before _)
          exact hsub.map Measured.result
        have hlt := sorted_head_lt hnodup hsorted hpair
        rw [hkey, hkey'] at hlt
        exact absurd (hafter m hlast hsilent) (not_le.mpr hlt)

end Selection

/-- With no VPN and a physical adapter, the selection is right exactly when, where a provider
answers at all, one beats the average that stands for silence. -/
theorem selectFastest_iff (env : Environment) (ans : Answers) (iterations : ℕ) (w : World)
    (hready : Ready ans iterations w) (hvalid : ∀ m ∈ latencies ans iterations w, m.Valid) :
    SelectsFastest (latencies ans iterations w)
        (physicalAdapters ans (w.calls + 2 + dnsProviders.length * iterations)) w
        (selectFastest ans iterations env w) ↔
      ((∃ m ∈ latencies ans iterations w, m.Answers) → BeatsSilence (latencies ans iterations w)) := by
  obtain ⟨m, hm, rest, hsorted, hrun⟩ := @selectFastest_run env ans iterations w hready
  rw [← head_answers_iff hvalid hm (results_nodup iterations w) hsorted]
  by_cases hanswers : m.Answers
  · rw [if_pos ((Measured.reachable_iff (hvalid m hm)).mpr hanswers)] at hrun
    refine iff_of_true ⟨fun _ => ?_, fun hreport => absurd hreport hrun.1⟩ fun _ => hanswers
    exact ⟨m, hm, hanswers, fun other => head_average_le hvalid hm hsorted hanswers, hrun.2⟩
  · rw [if_neg fun hreachable =>
      hanswers ((Measured.reachable_iff (hvalid m hm)).mp hreachable)] at hrun
    constructor
    · rintro ⟨-, hreports⟩ ⟨other, hother, hother'⟩
      exact absurd hother' (hreports hrun.1 other hother)
    · intro hsome
      have hnone : ¬ ∃ other ∈ latencies ans iterations w, other.Answers :=
        fun h => hanswers (hsome h)
      exact ⟨fun h => absurd h hnone, fun _ other hother h => hnone ⟨other, hother, h⟩⟩

/-! One adapter, and a latency for each server. -/

def servers (latency : String → ℚ) : Answers where
  adapters _ := some [ethernet]
  view _ := ⟨none, none⟩
  echo _ _ _ := ⟨true, some 1, none, 0, 0⟩
  latency _ := latency

theorem servers_ready (latency : String → ℚ) (iterations : ℕ) :
    Ready (servers latency) iterations (machineWithMtu 1500) where
  active := show isVpnOrDpiBypassActive ⟨none, none⟩ = false by decide
  fakeIp := show hasFakeIpOrVpnDns ⟨none, none⟩ = false by decide
  physical := by
    obtain ⟨nic, hnic⟩ := @physicalAdapters_ethernet (servers latency)
      ((machineWithMtu 1500).calls + 2 + dnsProviders.length * iterations) rfl
    rw [hnic]
    exact List.cons_ne_nil _ _

instance (m : Measured) : Decidable m.Answers := inferInstanceAs (Decidable (_ ≠ _))

instance (m : Measured) : Decidable m.Valid :=
  inferInstanceAs (Decidable (∀ lat ∈ m.samples, lat = 9999 ∨ 0 ≤ lat ∧ lat ≤ 1200))

/-- Every server answers in 20 ms. -/
theorem selectFastest_allFast : SelectsFastest
    (latencies (servers fun _ => 20) 3 (machineWithMtu 1500))
    (physicalAdapters (servers fun _ => 20) 17) (machineWithMtu 1500)
    (selectFastest (servers fun _ => 20) 3 netshWorks (machineWithMtu 1500)) := by
  refine (selectFastest_iff netshWorks (servers fun _ => 20) 3 (machineWithMtu 1500)
    (servers_ready _ 3) (by decide)).mpr fun _ => ?_
  exact ⟨[], _, _, rfl, by decide, nofun, by decide⟩

/-- Only one server answers, in 1000 ms. -/
def slowGoogle : Answers := servers fun server => if server = "8.8.8.8" then 1000 else 9999

theorem not_selectFastest_slowGoogle :
    ¬ ∀ (env : Environment) (ans : Answers) (iterations : ℕ) (w : World), Ready ans iterations w →
      (∀ m ∈ latencies ans iterations w, m.Valid) →
      SelectsFastest (latencies ans iterations w)
        (physicalAdapters ans (w.calls + 2 + dnsProviders.length * iterations)) w
        (selectFastest ans iterations env w) := by
  intro h
  let w := machineWithMtu 1500
  have hready : Ready slowGoogle 3 w := servers_ready _ 3
  have hvalid : ∀ m ∈ latencies slowGoogle 3 w, m.Valid := by decide
  have hselects := h netshWorks slowGoogle 3 w hready hvalid
  obtain ⟨m, hm, rest, hsorted, hrun⟩ := @selectFastest_run netshWorks slowGoogle 3 w hready
  have hslow : ∀ m ∈ latencies slowGoogle 3 w, m.Answers → 999 < m.average := by decide +kernel
  have hsilent : ¬ m.Answers := by
    intro hanswers
    obtain ⟨u, hu, hquiet⟩ : ∃ u ∈ latencies slowGoogle 3 w, ¬ u.Answers := by decide
    have hle := sorted_head_le hsorted (List.mem_map_of_mem hu)
    rw [Measured.avgLatencyMs_eq (hvalid m hm) hanswers,
      Measured.avgLatencyMs_silent (hvalid u hu) hquiet] at hle
    exact absurd (hslow m hm hanswers) (not_lt.mpr hle)
  rw [if_neg fun hreachable =>
    hsilent ((Measured.reachable_iff (hvalid m hm)).mp hreachable)] at hrun
  obtain ⟨google, hgoogle, hanswers⟩ : ∃ google ∈ latencies slowGoogle 3 w, google.Answers := by
    decide
  exact hselects.reports hrun.1 google hgoogle hanswers

end Disping.Links
