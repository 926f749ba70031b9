import Mathlib
import ShazamioCore.LocalMaxima

/-!
# Interpolation on detected peaks

A detected bin stands strictly above both its neighbours, because the pass three before
holds its own pass's spread spectrum. So the assertion never fires, the quotient is nothing
over nothing or less than 32, and the corrected bin stays within 31 of 64 times the bin.
-/
namespace SubBin

open MachineInt SignatureFormat Algorithm PeakDetection SpreadRings GeneratorRun StreamingPeaks
  LocalMaxima Interpolation

variable {K : Type} [Field K] [LinearOrder K] [IsStrictOrderedRing K] [FloorRing K] [Ln K]

/-- The arithmetic on a bin and its two neighbours, from the variation to the landmark. -/
structure InRange (o : Overflow) (num : UInt32) (spectrum : Spectrum K) (b : Nat)
    (before magnitude after : K) : Prop where
  asserted : 0 ≤ peakVariation1 before magnitude after
  flat : peakVariation1 before magnitude after = 0 →
    after = before ∧ peakVariation2 before magnitude after = 0
  quotient : peakVariation1 before magnitude after ≠ 0 →
    |(after - before) * 32 / peakVariation1 before magnitude after| < 32
  sum : addI32 o (b * 64) (peakVariation2 before magnitude after) =
    some (b * 64 + peakVariation2 before magnitude after)
  cast : ((wrapU16 (b * 64 + peakVariation2 before magnitude after)).toNat : Int) =
    b * 64 + peakVariation2 before magnitude after
  corrected : (64 * b - 31 : Int) ≤ b * 64 + peakVariation2 before magnitude after ∧
    b * 64 + peakVariation2 before magnitude after ≤ (64 * b + 31 : Int)
  recorded : landmark o num spectrum b = (subU32 o num 46).map fun fftPassNumber =>
    ⟨fftPassNumber, saturateU16 (F32.trunc magnitude),
      wrapU16 (b * 64 + peakVariation2 before magnitude after)⟩

section Variation

variable {before magnitude after : K}

theorem peakVariation1_nonneg (hbefore : before ≤ magnitude) (hafter : after ≤ magnitude) :
    0 ≤ peakVariation1 before magnitude after := by
  rw [peakVariation1_eq]
  linarith

/-- Without variation all three points are level. -/
theorem level_of_peakVariation1 (hbefore : before ≤ magnitude) (hafter : after ≤ magnitude)
    (h : peakVariation1 before magnitude after = 0) : after = before := by
  rw [peakVariation1_eq] at h
  linarith

/-- With a middle strictly on top the vertex lies strictly between the outer points. -/
theorem quotient_lt (hbefore : before < magnitude) (hafter : after < magnitude) :
    |(after - before) * 32 / peakVariation1 before magnitude after| < 32 := by
  have hpos : 0 < magnitude * 2 - before - after := by linarith
  rw [peakVariation1_eq, abs_div, abs_of_pos hpos, div_lt_iff₀ hpos, abs_lt]
  constructor
  · linarith
  · linarith

/-- Magnitudes of three values, the middle one the largest: either all are cut off, or the
middle one is strictly the largest too. -/
theorem level_or_lt {S : Set K} (hln : StrictMonoOn (Ln.ln : K → K) S) {x y z : K} (hx : x ∈ S)
    (hy : y ∈ S) (hz : z ∈ S) (hxy : x < y) (hzy : z < y) :
    (logMagnitude x = logMagnitude y ∧ logMagnitude z = logMagnitude y) ∨
      (logMagnitude x < logMagnitude y ∧ logMagnitude z < logMagnitude y) := by
  have hle := logMagnitude_le hln.monotoneOn hx hy hxy.le
  have hge := logMagnitude_le hln.monotoneOn hz hy hzy.le
  by_cases hcut : Ln.ln y ≤ 1 / 64
  · left
    exact ⟨logMagnitude_eq_of_cut hln hx hy hxy hcut, logMagnitude_eq_of_cut hln hz hy hzy hcut⟩
  · right
    constructor
    · exact lt_of_le_of_ne hle fun heq => hcut (logMagnitude_cut hln hx hy hxy heq)
    · exact lt_of_le_of_ne hge fun heq => hcut (logMagnitude_cut hln hz hy hzy heq)

/-- A correction between strictly lower neighbours, or between level ones. -/
theorem peakVariation2_lt
    (h : (before = magnitude ∧ after = magnitude) ∨ (before < magnitude ∧ after < magnitude)) :
    -31 ≤ peakVariation2 before magnitude after ∧ peakVariation2 before magnitude after ≤ 31 := by
  have hbefore : before ≤ magnitude := h.elim (fun h => h.1.le) fun h => h.1.le
  have hafter : after ≤ magnitude := h.elim (fun h => h.2.le) fun h => h.2.le
  rw [peakVariation2_eq before magnitude after hbefore hafter]
  split
  · omega
  · rename_i hne
    rcases h with ⟨rfl, rfl⟩ | ⟨hlow, hhigh⟩
    · exact absurd (by ring) hne
    · have hquotient := quotient_lt hlow hhigh
      rw [peakVariation1_eq] at hquotient
      obtain ⟨hlo, hhi⟩ := F32.exactTrunc_lt _ 32 (by exact_mod_cast hquotient)
      rw [saturateI32_small _ (by omega) (by omega)]
      omega

end Variation

/-- The arithmetic on a bin strictly above its neighbours. -/
theorem inRange_of_lt {S : Set K} (hln : StrictMonoOn (Ln.ln : K → K) S) (o : Overflow)
    (num : UInt32) (spectrum : Spectrum K) (hS : ∀ c < 1025, value spectrum c ∈ S) (b : Nat)
    (hlo : 10 ≤ b) (hhi : b ≤ 1014) (hlow : value spectrum (b - 1) < value spectrum b)
    (hhigh : value spectrum (b + 1) < value spectrum b) :
    InRange o num spectrum b (logMagnitude (value spectrum (b - 1)))
      (logMagnitude (value spectrum b)) (logMagnitude (value spectrum (b + 1))) := by
  have hlevel := level_or_lt hln (hS (b - 1) (by omega)) (hS b (by omega)) (hS (b + 1) (by omega))
    hlow hhigh
  generalize hbefore : logMagnitude (value spectrum (b - 1)) = before at hlevel ⊢
  generalize hmagnitude : logMagnitude (value spectrum b) = magnitude at hlevel ⊢
  generalize hafter : logMagnitude (value spectrum (b + 1)) = after at hlevel ⊢
  have hle : before ≤ magnitude := hlevel.elim (fun h => h.1.le) fun h => h.1.le
  have hge : after ≤ magnitude := hlevel.elim (fun h => h.2.le) fun h => h.2.le
  have hnonneg := peakVariation1_nonneg hle hge
  obtain ⟨hdlo, hdhi⟩ := peakVariation2_lt hlevel
  obtain ⟨hsum, hcast, hlandmark⟩ := landmark_corrected o num spectrum b hlo hhi before magnitude
    after hbefore hmagnitude hafter ((literal_zero_le _).mpr hnonneg) (by omega) (by omega)
  constructor
  case asserted => exact hnonneg
  case flat =>
    intro hzero
    refine ⟨level_of_peakVariation1 hle hge hzero, ?_⟩
    rw [peakVariation1_eq] at hzero
    rw [peakVariation2_eq before magnitude after hle hge, if_pos hzero]
  case quotient =>
    intro hne
    rcases hlevel with ⟨rfl, rfl⟩ | ⟨hlow', hhigh'⟩
    · rw [peakVariation1_eq] at hne
      exact absurd (by ring) hne
    · exact quotient_lt hlow' hhigh'
  case sum => exact hsum
  case cast => exact hcast
  case corrected => omega
  case recorded => exact hlandmark

/-- A bin that passes the tests has a correction that is well defined and in range, for any
logarithm that increases strictly on a set the spectrum's values lie in. -/
theorem detected_inRange {S : Set K} (hln : StrictMonoOn (Ln.ln : K → K) S) (o : Overflow)
    (r : Nat → Spectrum K) (buffer : List Int16) (p : Nat) (this : SignatureGenerator K)
    (h : searchedState o r buffer p = some this) (hS : ∀ c < 1025, value (r p) c ∈ S) (b : Nat)
    (hb : b ∈ binPositions) (hpeak : isPeak this b = some true) :
    InRange o this.numSpreadFftsDone (fftMinus46 this) b
      (logMagnitude (value (fftMinus46 this) (b - 1))) (logMagnitude (value (fftMinus46 this) b))
      (logMagnitude (value (fftMinus46 this) (b + 1))) := by
  have hinv := searchedState_inv h
  obtain ⟨hlo, hhi⟩ := (mem_binPositions b).mp hb
  rw [isPeak_eq hinv b hlo hhi, Option.some.injEq, decide_eq_true_eq] at hpeak
  rw [fftMinus46_eq hinv]
  apply inRange_of_lt hln o _ (r p) hS b hlo hhi
  · exact hpeak.value_lt _ (by omega) (by omega) (by omega) hlo
  · exact hpeak.value_lt _ (by omega) (by omega) (by omega) hlo

/-- The spike of the first pass, under the natural logarithm of positive values. -/
theorem detected_inRange_spike :
    ∃ this, searchedState .panics (spike 0) [] 0 = some this ∧
      InRange .panics this.numSpreadFftsDone (fftMinus46 this) 100
        (logMagnitude (value (fftMinus46 this) 99)) (logMagnitude (value (fftMinus46 this) 100))
        (logMagnitude (value (fftMinus46 this) 101)) := by
  obtain ⟨this, h⟩ := searchedState_first .panics (spike 0) []
  have hpositive : ∀ c < 1025, value (spike 0 0) c ∈ Set.Ioi (0 : ℝ) := by
    intro c hc
    rw [Set.mem_Ioi, value_spike _ _ _ hc]
    split <;> norm_num
  have hpeak : isPeak this 100 = some true := by
    rw [isPeak_eq (searchedState_inv h) 100 (by decide) (by decide), decide_eq_true
      ((isPeak_spike 0 0 100 (by decide) (by decide)).mpr ⟨rfl, rfl⟩)]
  exact ⟨this, h, detected_inRange Real.strictMonoOn_log .panics (spike 0) [] 0 this h hpositive 100
    (by decide) hpeak⟩

end SubBin
