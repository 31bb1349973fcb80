import Mathlib.Algebra.Order.Field.Rat
import Mathlib.Algebra.Order.Floor.Ring
import Mathlib.Data.Rat.Floor
import Mathlib.Tactic.Linarith
import Mathlib.Tactic.Ring

/-! # GenerateSparkline

One character for each of the last samples, in exact arithmetic: an X for a lost packet and
otherwise a bar, scaled between the extremes of the whole history. The number of samples is
converted to an int before it is compared with the width.
-/
namespace Disping.Telemetry

def asciiChars : List Char := ['_', '.', '-', '=', 'o', 'O', '#']

def numChars : ℤ := asciiChars.length

/-- Conversion of a double to an int, towards zero. -/
def toward (x : ℚ) : ℤ := if 0 ≤ x then ⌊x⌋ else ⌈x⌉

def sampleLevel (minVal range val : ℚ) : ℤ :=
  let level := toward ((val - minVal) / range * (numChars - 1 : ℤ))
  let level := if level < 0 then 0 else level
  if numChars ≤ level then numChars - 1 else level

def sampleChar (minVal range val : ℚ) : Char :=
  if val < 0 then 'X' else asciiChars.getD (sampleLevel minVal range val).toNat '_'

def validSamples (history : List ℚ) : List ℚ := history.filter fun v => 0 ≤ v

def minElement (samples : List ℚ) : ℚ := samples.min?.getD 0

def maxElement (samples : List ℚ) : ℚ := samples.max?.getD 0

def sampleRange (valid : List ℚ) : ℚ :=
  let range := maxElement valid - minElement valid
  if range < 1 / 1000 then 1 else range

/-- An int; the size is converted to one. -/
def startIdx (size : ℕ) (width : BitVec 32) : BitVec 32 :=
  let size := BitVec.ofNat 32 size
  if width.toInt < size.toInt then size - width else 0

def generateSparkline (history : List ℚ) (width : BitVec 32) : String :=
  let valid := validSamples history
  if history = [] then ""
  else if valid = [] then "[PACKET LOSS]"
  else
    -- the loop counts in a size_t
    let shown := history.drop ((startIdx history.length width).signExtend 64).toNat
    String.ofList (shown.map (sampleChar (minElement valid) (sampleRange valid)))

/-! What a sparkline shows. -/

/-- The last `n` samples. -/
def lastSamples (history : List ℚ) (n : ℕ) : List ℚ := history.drop (history.length - n)

/-- The height of a bar. -/
def barHeight (c : Char) : ℕ := asciiChars.idxOf c

/-- The text shows the last `width` samples of the history. -/
structure Shows (history : List ℚ) (width : ℕ) (s : List Char) : Prop where
  count : s.length = min history.length width
  lost : ∀ (i : ℕ) v c, (lastSamples history width)[i]? = some v → s[i]? = some c → (c = 'X' ↔ v < 0)
  bar : ∀ (i : ℕ) v c, (lastSamples history width)[i]? = some v → s[i]? = some c → 0 ≤ v → c ∈ asciiChars
  monotone : ∀ (i j : ℕ) v v' c c', (lastSamples history width)[i]? = some v →
    (lastSamples history width)[j]? = some v' → s[i]? = some c → s[j]? = some c' →
      0 ≤ v → v ≤ v' → barHeight c ≤ barHeight c'
  extremes : (∃ lo ∈ history, ∃ hi ∈ history, 0 ≤ lo ∧ 1 / 1000 ≤ hi - lo) →
    ∀ (i : ℕ) v c, (lastSamples history width)[i]? = some v → s[i]? = some c →
      ((∀ u ∈ history, u ≤ v) → c = '#') ∧ (0 ≤ v → (∀ u ∈ history, 0 ≤ u → v ≤ u) → c = '_')

/-! Levels. -/

theorem sampleLevel_eq {minVal range val : ℚ} (hrange : 0 < range) (hmin : minVal ≤ val)
    (hmax : val - minVal ≤ range) :
    sampleLevel minVal range val = ⌊(val - minVal) / range * 6⌋ ∧
      0 ≤ sampleLevel minVal range val ∧ sampleLevel minVal range val ≤ 6 := by
  have hnonneg : 0 ≤ (val - minVal) / range := div_nonneg (sub_nonneg.mpr hmin) hrange.le
  have hone : (val - minVal) / range ≤ 1 := (div_le_one hrange).mpr hmax
  have hfloor : 0 ≤ ⌊(val - minVal) / range * 6⌋ := Int.floor_nonneg.mpr (by linarith)
  have hsix : ⌊(val - minVal) / range * 6⌋ ≤ 6 := by
    have hle : ⌊(val - minVal) / range * 6⌋ ≤ ⌊(6 : ℚ)⌋ := Int.floor_le_floor (by linarith)
    simpa using hle
  have hlevel : sampleLevel minVal range val = ⌊(val - minVal) / range * 6⌋ := by
    have hseven : numChars = 7 := rfl
    have hcast : ((7 - 1 : ℤ) : ℚ) = 6 := by norm_num
    have htoward : toward ((val - minVal) / range * 6) = ⌊(val - minVal) / range * 6⌋ :=
      if_pos (by linarith)
    simp only [sampleLevel, hseven, hcast, htoward]
    rw [if_neg (not_lt.mpr hfloor), if_neg (by omega)]
  exact ⟨hlevel, hlevel ▸ hfloor, hlevel ▸ hsix⟩

theorem sampleLevel_mono {minVal range v v' : ℚ} (hrange : 0 < range) (hmin : minVal ≤ v)
    (hle : v ≤ v') (hmax : v' - minVal ≤ range) :
    sampleLevel minVal range v ≤ sampleLevel minVal range v' := by
  rw [(sampleLevel_eq hrange hmin (by linarith)).1,
    (sampleLevel_eq hrange (hmin.trans hle) hmax).1]
  refine Int.floor_le_floor (mul_le_mul_of_nonneg_right ?_ (by norm_num))
  exact div_le_div_of_nonneg_right (by linarith) hrange.le

/-- The heights of the bars are the levels. -/
theorem barHeight_level {n : ℤ} (h0 : 0 ≤ n) (h6 : n ≤ 6) :
    asciiChars.getD n.toNat '_' ∈ asciiChars ∧
      barHeight (asciiChars.getD n.toNat '_') = n.toNat := by
  have hall : ∀ k < 7, asciiChars.getD k '_' ∈ asciiChars ∧
      barHeight (asciiChars.getD k '_') = k := by decide
  exact hall n.toNat (by omega)

/-! Extremes. -/

/-- What a history with a sample that is not negative gives the scale. -/
structure Scaled (history : List ℚ) (minVal maxVal range : ℚ) : Prop where
  min_mem : minVal ∈ history
  max_mem : maxVal ∈ history
  nonneg : 0 ≤ minVal
  between : ∀ v ∈ history, 0 ≤ v → minVal ≤ v ∧ v ≤ maxVal
  range_eq : range = if maxVal - minVal < 1 / 1000 then 1 else maxVal - minVal

theorem exists_scaled {history : List ℚ} (h : ∃ v ∈ history, 0 ≤ v) :
    ∃ maxVal, Scaled history (minElement (validSamples history)) maxVal
      (sampleRange (validSamples history)) := by
  have hmem : ∀ v, v ∈ validSamples history ↔ v ∈ history ∧ 0 ≤ v := by
    intro v
    rw [validSamples, List.mem_filter, decide_eq_true_eq]
  obtain ⟨u, hu, hu0⟩ := h
  have hne : validSamples history ≠ [] := List.ne_nil_of_mem ((hmem u).mpr ⟨hu, hu0⟩)
  obtain ⟨lo, hlo⟩ := Option.isSome_iff_exists.mp (List.isSome_min?_of_ne_nil hne)
  obtain ⟨hi, hhi⟩ := Option.isSome_iff_exists.mp (List.isSome_max?_of_ne_nil hne)
  obtain ⟨hlomem, hlole⟩ := List.min?_eq_some_iff.mp hlo
  obtain ⟨himem, hhile⟩ := List.max?_eq_some_iff.mp hhi
  have hmin : minElement (validSamples history) = lo := by rw [minElement, hlo, Option.getD_some]
  have hmax : maxElement (validSamples history) = hi := by rw [maxElement, hhi, Option.getD_some]
  refine ⟨hi, ?_⟩
  rw [hmin]
  refine ⟨((hmem lo).mp hlomem).1, ((hmem hi).mp himem).1, ((hmem lo).mp hlomem).2, ?_, ?_⟩
  · intro v hv hv0
    exact ⟨hlole v ((hmem v).mpr ⟨hv, hv0⟩), hhile v ((hmem v).mpr ⟨hv, hv0⟩)⟩
  · rw [sampleRange, hmin, hmax]

section Scale
variable {history : List ℚ} {minVal maxVal range : ℚ}

theorem Scaled.range_pos (h : Scaled history minVal maxVal range) : 0 < range := by
  rw [h.range_eq]
  split
  · norm_num
  · linarith

theorem Scaled.offset_le (h : Scaled history minVal maxVal range) {v : ℚ} (hv : v ∈ history)
    (hv0 : 0 ≤ v) : v - minVal ≤ range := by
  obtain ⟨-, hle⟩ := h.between v hv hv0
  rw [h.range_eq]
  split
  · linarith
  · linarith

/-- The character of a sample that was not lost. -/
theorem Scaled.sampleChar (h : Scaled history minVal maxVal range) {v : ℚ} (hv : v ∈ history)
    (hv0 : 0 ≤ v) : Telemetry.sampleChar minVal range v ∈ asciiChars ∧
      barHeight (Telemetry.sampleChar minVal range v) = (sampleLevel minVal range v).toNat := by
  obtain ⟨-, h0, h6⟩ := sampleLevel_eq h.range_pos (h.between v hv hv0).1 (h.offset_le hv hv0)
  rw [Telemetry.sampleChar, if_neg (not_lt.mpr hv0)]
  exact barHeight_level h0 h6

theorem Scaled.highest (h : Scaled history minVal maxVal range)
    (hspread : 1 / 1000 ≤ maxVal - minVal) : Telemetry.sampleChar minVal range maxVal = '#' := by
  have hmax0 : 0 ≤ maxVal := h.nonneg.trans (h.between minVal h.min_mem h.nonneg).2
  have hrange : range = maxVal - minVal := by rw [h.range_eq, if_neg (not_lt.mpr hspread)]
  have hlevel := (sampleLevel_eq h.range_pos (h.between maxVal h.max_mem hmax0).1
    (h.offset_le h.max_mem hmax0)).1
  rw [← hrange, div_self h.range_pos.ne', one_mul] at hlevel
  have hsix : ⌊(6 : ℚ)⌋ = 6 := by norm_num
  rw [Telemetry.sampleChar, if_neg (not_lt.mpr hmax0), hlevel, hsix]
  rfl

theorem Scaled.lowest (h : Scaled history minVal maxVal range) :
    Telemetry.sampleChar minVal range minVal = '_' := by
  have hlevel := (sampleLevel_eq h.range_pos (le_refl minVal) (h.offset_le h.min_mem h.nonneg)).1
  rw [sub_self, zero_div, zero_mul, Int.floor_zero] at hlevel
  rw [Telemetry.sampleChar, if_neg (not_lt.mpr h.nonneg), hlevel]
  rfl

/-- The characters of the last samples show them. -/
theorem Scaled.shows (h : Scaled history minVal maxVal range) (width : ℕ) :
    Shows history width
      ((lastSamples history width).map (Telemetry.sampleChar minVal range)) := by
  have hmem : ∀ (i : ℕ) v, (lastSamples history width)[i]? = some v → v ∈ history :=
    fun i v hv => List.mem_of_mem_drop (List.mem_of_getElem? hv)
  have hchar : ∀ (i : ℕ) v c, (lastSamples history width)[i]? = some v →
      ((lastSamples history width).map (Telemetry.sampleChar minVal range))[i]? = some c →
        c = Telemetry.sampleChar minVal range v := by
    intro i v c hv hc
    rw [List.getElem?_map, hv] at hc
    exact (Option.some.inj hc).symm
  refine ⟨?_, ?_, ?_, ?_, ?_⟩
  · rw [List.length_map, lastSamples, List.length_drop]
    omega
  · intro i v c hv hc
    rw [hchar i v c hv hc]
    constructor
    · intro hx
      by_contra hv0
      obtain ⟨hbar, -⟩ := h.sampleChar (hmem i v hv) (not_lt.mp hv0)
      rw [hx] at hbar
      exact absurd hbar (by decide)
    · exact fun hlost => if_pos hlost
  · intro i v c hv hc hv0
    rw [hchar i v c hv hc]
    exact (h.sampleChar (hmem i v hv) hv0).1
  · intro i j v v' c c' hv hv' hc hc' hv0 hle
    rw [hchar i v c hv hc, hchar j v' c' hv' hc', (h.sampleChar (hmem i v hv) hv0).2,
      (h.sampleChar (hmem j v' hv') (hv0.trans hle)).2]
    exact Int.toNat_le_toNat (sampleLevel_mono h.range_pos (h.between v (hmem i v hv) hv0).1 hle
      (h.offset_le (hmem j v' hv') (hv0.trans hle)))
  · rintro ⟨lo, hlo, hi, hhi, hlo0, hspread⟩ i v c hv hc
    rw [hchar i v c hv hc]
    have hwide : 1 / 1000 ≤ maxVal - minVal := by
      have hlow := (h.between lo hlo hlo0).1
      have hhigh := (h.between hi hhi (by linarith)).2
      linarith
    constructor
    · intro hall
      have heq : v = maxVal := by
        have hmax := hall maxVal h.max_mem
        have hmax0 : 0 ≤ maxVal := h.nonneg.trans (h.between minVal h.min_mem h.nonneg).2
        exact le_antisymm (h.between v (hmem i v hv) (hmax0.trans hmax)).2 hmax
      rw [heq]
      exact h.highest hwide
    · intro hv0 hall
      have heq : v = minVal :=
        le_antisymm (hall minVal h.min_mem h.nonneg) (h.between v (hmem i v hv) hv0).1
      rw [heq]
      exact h.lowest

end Scale

/-! The window. -/

/-- How many samples are skipped. -/
theorem startIdx_toNat (size : ℕ) {width : BitVec 32} (hwidth : 0 ≤ width.toInt) :
    ((startIdx size width).signExtend 64).toNat =
      ((BitVec.ofNat 32 size).toInt - width.toInt).toNat := by
  rw [startIdx]
  generalize BitVec.ofNat 32 size = shown
  by_cases hlt : width.toInt < shown.toInt
  · rw [if_pos hlt]
    have hshown : shown.toInt < 2 ^ 31 := BitVec.toInt_lt
    have hdiff : (shown - width).toInt = shown.toInt - width.toInt := by
      rw [BitVec.toInt_sub, Int.bmod_eq_of_le (by omega) (by omega)]
    have hextended : ((shown - width).signExtend 64).toInt = shown.toInt - width.toInt := by
      rw [BitVec.toInt_signExtend_of_le (by decide), hdiff]
    have hcases := BitVec.toInt_eq_toNat_cond ((shown - width).signExtend 64)
    have hbound := ((shown - width).signExtend 64).isLt
    omega
  · rw [if_neg hlt]
    have hnone : (shown.toInt - width.toInt).toNat = 0 := by omega
    rw [hnone]
    rfl

theorem generateSparkline_chars {history : List ℚ} (hvalid : ∃ v ∈ history, 0 ≤ v)
    {width : BitVec 32} (hwidth : 0 ≤ width.toInt) :
    (generateSparkline history width).toList =
      (history.drop ((BitVec.ofNat 32 history.length).toInt - width.toInt).toNat).map
        (sampleChar (minElement (validSamples history)) (sampleRange (validSamples history))) := by
  obtain ⟨v, hv, hv0⟩ := hvalid
  have hhistory : history ≠ [] := List.ne_nil_of_mem hv
  have hsamples : validSamples history ≠ [] :=
    List.ne_nil_of_mem (List.mem_filter.mpr ⟨hv, decide_eq_true hv0⟩)
  rw [generateSparkline, if_neg hhistory, if_neg hsamples, String.toList_ofList,
    startIdx_toNat _ hwidth]

/-- When a sparkline shows the last samples of its history. -/
theorem generateSparkline_shows_iff {history : List ℚ} (hvalid : ∃ v ∈ history, 0 ≤ v)
    {width : BitVec 32} (hwidth : 0 ≤ width.toInt) :
    Shows history width.toNat (generateSparkline history width).toList ↔
      history.length < 2 ^ 31 := by
  have hcast : (width.toNat : ℤ) = width.toInt := by
    have hcases := BitVec.toInt_eq_toNat_cond width
    omega
  have hwidth31 : width.toInt < 2 ^ 31 := BitVec.toInt_lt
  rw [generateSparkline_chars hvalid hwidth]
  constructor
  · intro h
    have hsize : (BitVec.ofNat 32 history.length).toInt < 2 ^ 31 := BitVec.toInt_lt
    have hcount := h.count
    rw [List.length_map, List.length_drop] at hcount
    omega
  · intro hlength
    have hsize : (BitVec.ofNat 32 history.length).toInt = history.length := by
      rw [BitVec.toInt_ofNat', Int.bmod_eq_of_le (by omega) (by omega)]
    have hskipped : ((BitVec.ofNat 32 history.length).toInt - width.toInt).toNat =
        history.length - width.toNat := by omega
    rw [hskipped]
    obtain ⟨maxVal, hscaled⟩ := exists_scaled hvalid
    exact hscaled.shows width.toNat

/-- The history of the repository's own test. -/
theorem testHistory_shows : Shows [10, 12, 15, 20, -1, 25] (10 : BitVec 32).toNat
    (generateSparkline [10, 12, 15, 20, -1, 25] 10).toList :=
  (generateSparkline_shows_iff ⟨10, List.mem_cons_self, by norm_num⟩ (by decide)).mpr (by simp)

/-- A history of 2 ^ 31 samples is drawn whole. -/
theorem not_generateSparkline_shows : ¬ ∀ (history : List ℚ) (width : BitVec 32),
    (∃ v ∈ history, 0 ≤ v) → 0 ≤ width.toInt →
      Shows history width.toNat (generateSparkline history width).toList := by
  intro hall
  have hvalid : ∃ v ∈ List.replicate (2 ^ 31) (1 : ℚ), 0 ≤ v :=
    ⟨1, List.mem_replicate.mpr ⟨by norm_num, rfl⟩, by norm_num⟩
  have hshows := (hall (List.replicate (2 ^ 31) 1) 30 hvalid (by decide)).count
  have hsize : (BitVec.ofNat 32 (2 ^ 31)).toInt = -(2 ^ 31) := by decide
  have hwidth : (30 : BitVec 32).toInt = 30 ∧ (30 : BitVec 32).toNat = 30 := by decide
  rw [generateSparkline_chars hvalid (by decide), List.length_map, List.length_drop,
    List.length_replicate, hsize, hwidth.1, hwidth.2] at hshows
  omega

end Disping.Telemetry
