import Mathlib
import ShazamioCore.StreamingPeaks

/-!
# Peaks as local maxima

The tests compare a bin with a few sparse neighbours of a spread spectrum. Put together
they leave no hole: a peak stands above ten bins to each side in its own pass, and above
the three bins around it in every pass the tests reach. A bin that stands above all of
its surroundings is found.
-/
namespace LocalMaxima

open MachineInt Algorithm PeakDetection SpreadRings GeneratorRun StreamingPeaks

variable {α : Type} [LinearOrder α] [F32 α]

/-- The passes, counted from its own, that a peak may tie with. -/
def tiedPasses : List Int := [-3, -2, 3]

structure LocalMaximum (r : Nat → Spectrum α) (p b : Nat) : Prop where
  own : ∀ c, b ≤ c + 10 → c ≤ b + 10 → c ≠ b → value (r p) c < value (r p) b
  adjacent : ∀ q ∈ adjacentPasses, ∀ e ∈ keptOffsets, 0 ≤ p + (q + e) →
    ∀ c, b ≤ c + 1 → c ≤ b + 1 → value (r (p + (q + e)).toNat) c < value (r p) b
  tied : ∀ d ∈ tiedPasses, 0 ≤ p + d →
    ∀ c, b ≤ c + 1 → c ≤ b + 1 → value (r (p + d).toNat) c ≤ value (r p) b

/-- A bin that stands above everything within 45 passes and 10 bins. -/
structure Dominates (r : Nat → Spectrum α) (p b : Nat) : Prop where
  large : F32.lit (1 / 64) ≤ value (r p) b
  above : ∀ j c, p ≤ j + 45 → j ≤ p + 45 → b ≤ c + 10 → c ≤ b + 10 → ¬(j = p ∧ c = b) →
    value (r j) c < value (r p) b

/-- What is spread to the bin below one reaches its two neighbours. -/
theorem spread_pred_reaches (P : Nat → Prop) {b : Nat} (hb : 1 ≤ b)
    (h : P (b - 1) ∧ P (b - 1 + 1) ∧ P (b - 1 + 2)) (c : Nat) (hlo : b ≤ c + 1) (hhi : c ≤ b + 1) :
    P c := by
  obtain ⟨hbelow, hown, habove⟩ := h
  rcases (by omega : c = b - 1 ∨ c = b - 1 + 1 ∨ c = b - 1 + 2) with hc | hc | hc
  · exact hc ▸ hbelow
  · exact hc ▸ hown
  · exact hc ▸ habove

/-- A peak is a local maximum, before the first passes too. -/
theorem localMaximum_of_isPeak {r : Nat → Spectrum α} {p b : Nat} (hb : 10 ≤ b)
    (h : IsPeak r p b) : LocalMaximum r p b := by
  obtain ⟨-, hbefore, -, hadjacent⟩ := id h
  constructor
  case own =>
    intro c hlo hhi hne
    exact h.value_lt c hlo hhi hne hb
  case adjacent =>
    intro q hq e he hstarted c hlo hhi
    have hkept : (p + (q + e) : Int) ∈ keptPasses (p + q) := by
      rw [mem_keptPasses]
      simp only [keptOffsets, List.mem_cons, List.not_mem_nil, or_false] at he
      omega
    have hspread := ((retained_lt_iff r _ _ _).mp (hadjacent q hq)).2 _ hkept
    rw [spreadValue_lt_iff] at hspread
    exact spread_pred_reaches (fun c => value _ c < value (r p) b) (by omega) hspread c hlo hhi
  case tied =>
    intro d hd hstarted c hlo hhi
    have hkept : (p + d : Int) ∈ keptPasses (p - 3) := by
      rw [mem_keptPasses]
      simp only [tiedPasses, List.mem_cons, List.not_mem_nil, or_false] at hd
      omega
    have hspread := ((retained_le_iff r _ _ _).mp hbefore).2 _ hkept
    rw [spreadValue_le_iff] at hspread
    exact spread_pred_reaches (fun c => value _ c ≤ value (r p) b) (by omega) hspread c hlo hhi

section Dominating

variable {r : Nat → Spectrum α} {p b : Nat}

theorem Dominates.pos (h : Dominates r p b) : F32.lit 0 < value (r p) b :=
  F32.zero_lt_floor.trans (F32.floor_lt_peak.trans_le h.large)

/-- Away from the bin itself a pass keeps less than what dominates it. -/
theorem Dominates.retained_lt (h : Dominates r p b) (q : Int) (c : Nat) (hlo : (p : Int) ≤ q + 45)
    (hhi : q + 6 ≤ p + 45) (hclo : b ≤ c + 10) (hchi : c + 2 ≤ b + 10)
    (hne : ∀ j ∈ keptPasses q, j ≠ p ∨ b < c ∨ c + 2 < b) :
    retained r q c < value (r p) b := by
  rw [retained_lt_iff]
  refine ⟨h.pos, ?_⟩
  intro j hj
  have hother := hne j hj
  rw [mem_keptPasses] at hj
  rw [spreadValue_lt_iff]
  refine ⟨?_, ?_, ?_⟩
  all_goals
    apply h.above
    all_goals omega

theorem Dominates.le (h : Dominates r p b) (j c : Nat) (hlo : p ≤ j + 45) (hhi : j ≤ p + 45)
    (hclo : b ≤ c + 10) (hchi : c ≤ b + 10) : value (r j) c ≤ value (r p) b := by
  by_cases hself : j = p ∧ c = b
  · obtain ⟨rfl, rfl⟩ := hself
    exact le_rfl
  · exact (h.above j c hlo hhi hclo hchi hself).le

/-- A bin that dominates passes every comparison of the search. -/
theorem isPeak_of_dominates (hb : 10 ≤ b) (h : Dominates r p b) : IsPeak r p b := by
  refine ⟨h.large, ?_, ?_, ?_⟩
  · rw [retained_le_iff]
    refine ⟨h.pos.le, ?_⟩
    intro j hj
    rw [mem_keptPasses] at hj
    rw [spreadValue_le_iff]
    refine ⟨?_, ?_, ?_⟩
    all_goals
      apply h.le
      all_goals omega
  · intro o ho
    simp only [neighborOffsets, List.mem_cons, List.not_mem_nil, or_false] at ho
    apply h.retained_lt
    case hne =>
      intro j _
      right
      omega
    all_goals omega
  · intro d hd
    simp only [adjacentPasses, List.mem_cons, List.not_mem_nil, or_false] at hd
    apply h.retained_lt
    case hne =>
      intro j hj
      rw [mem_keptPasses] at hj
      left
      omega
    all_goals omega

end Dominating

/-- What an examination of pass `p` finds and records. -/
structure Examination (o : Overflow) (r : Nat → Spectrum α) (p : Nat)
    (this : SignatureGenerator α) : Prop where
  /-- The tests tell the peaks of the pass, and landmarks of nothing else are recorded. -/
  detects : ∀ b ∈ binPositions, isPeak this b = some (decide (b ∈ peakBins r p))
  records : doPeakRecognition o this =
    ((peakBins r p).foldlM (recordPeak o this.numSpreadFftsDone (r p))
      this.signature.frequencyBandToSoundPeaks).map fun bands =>
        { this with signature := { this.signature with frequencyBandToSoundPeaks := bands } }
  maxima : ∀ b ∈ peakBins r p, LocalMaximum r p b
  apart : ∀ b ∈ peakBins r p, ∀ b' ∈ peakBins r p, b < b' → b + 11 ≤ b'
  complete : ∀ b ∈ binPositions, Dominates r p b → b ∈ peakBins r p

/-- Whatever the spectra, whatever passes went before: the peaks of the examined pass are
local maxima, well apart, and every dominating bin is among them. -/
theorem examined_peaks (o : Overflow) (r : Nat → Spectrum α) (buffer : List Int16) (p : Nat)
    (this : SignatureGenerator α) (h : searchedState o r buffer p = some this) :
    Examination o r p this := by
  have hinv := searchedState_inv h
  constructor
  case detects =>
    intro b hb
    have hrange := (mem_binPositions b).mp hb
    rw [isPeak_eq hinv b hrange.1 hrange.2]
    simp only [mem_peakBins, hrange, true_and, and_self]
  case records =>
    rw [doPeakRecognition_eq hinv o, recordPass, ← hinv.passes]
    rfl
  case maxima =>
    intro b hb
    obtain ⟨⟨hlo, -⟩, hpeak⟩ := (mem_peakBins r p b).mp hb
    exact localMaximum_of_isPeak hlo hpeak
  case apart =>
    intro b hb b' hb' hlt
    exact peakBins_apart hb hb' hlt
  case complete =>
    intro b hb hdominates
    have hrange := (mem_binPositions b).mp hb
    exact (mem_peakBins r p b).mpr ⟨hrange, isPeak_of_dominates hrange.1 hdominates⟩

/-- The first examination of a run is reached. -/
theorem searchedState_first (o : Overflow) (r : Nat → Spectrum α) (buffer : List Int16) :
    ∃ this, searchedState o r buffer 0 = some this := by
  have hrun : ∃ before, run o r buffer 45 = some before := by
    rw [← Option.ne_none_iff_exists', Ne, (run_refines o r buffer 45 (by decide)).stops]
    rintro ⟨p, hp, -⟩
    omega
  obtain ⟨before, hrun⟩ := hrun
  obtain ⟨_, _, -, hadvance⟩ := advance_spec (run_inv hrun).1 o (Or.inl (by decide))
  rw [searchedState, hrun]
  exact ⟨_, hadvance⟩

/-- The spike of the first pass is examined. -/
theorem examined_peaks_spike :
    ∃ this, searchedState .panics (spike 0) [] 0 = some this ∧
      Examination .panics (spike 0) 0 this := by
  obtain ⟨this, h⟩ := searchedState_first .panics (spike 0) []
  exact ⟨this, h, examined_peaks .panics (spike 0) [] 0 this h⟩

end LocalMaxima
