import Mathlib
import ShazamioCore.RealTransform

/-!
# A recording turned up

A transform of sums takes a gain through to every bin. Whatever stands above its surroundings
still does when all is turned up, so no peak is lost: those that appear were too quiet before.
Where the logarithm is not cut off, a landmark keeps its pass, its bin and its place between the
bins, and its magnitude rises by as much as any other.
-/
namespace Loudness

open MachineInt SignatureFormat Algorithm PeakDetection GeneratorRun StreamingPeaks SampleRing
  Locality LongerAudio Interpolation RealTransform

/-- A recording turned up without a sample cut off. -/
structure TurnedUp (gain : ℝ) (s louder : List Int16) : Prop where
  length : louder.length = s.length
  samples : ∀ i, ((louder.getD i 0).toInt : ℝ) = gain * (s.getD i 0).toInt

def Homogeneous (fft : Vector ℝ 2048 → Vector (ℝ × ℝ) 1025) : Prop :=
  ∀ gain window, fft (window.map (gain * ·)) = (fft window).map fun z => (gain * z.1, gain * z.2)

theorem realDft_homogeneous : Homogeneous realDft := by
  intro gain window
  apply Vector.ext
  intro c hc
  have hget : ∀ i : Fin 2048, (window.map (gain * ·)).get i = gain * window.get i := by
    intro i
    simp [Vector.get]
  simp only [realDft, Vector.getElem_ofFn, Vector.getElem_map, hget, mul_assoc, Finset.mul_sum]

section Raised

/-- A value with the floor under it, and what it is when what stands on the floor is raised. -/
def Raised (k x y : ℝ) : Prop :=
  ∃ p, x = max p (F32.lit (1 / 10 ^ 10)) ∧ y = max (k * p) (F32.lit (1 / 10 ^ 10))

variable {k x y t : ℝ} (hk : 1 ≤ k)

include hk

/-- Above the floor, a comparison is not changed by raising both sides. -/
theorem Raised.lt_iff (h : Raised k x y) (ht : F32.lit (1 / 10 ^ 10) < t) : y < k * t ↔ x < t := by
  obtain ⟨p, rfl, rfl⟩ := h
  have hpos : 0 < k := by linarith
  have hzero : (0 : ℝ) < F32.lit (1 / 10 ^ 10) := by norm_num [F32.lit]
  have hraised : F32.lit (1 / 10 ^ 10) < k * t := by nlinarith
  rw [max_lt_iff, max_lt_iff, mul_lt_mul_iff_right₀ hpos]
  simp only [ht, hraised, and_true]

theorem Raised.le_iff (h : Raised k x y) (ht : F32.lit (1 / 10 ^ 10) < t) : y ≤ k * t ↔ x ≤ t := by
  obtain ⟨p, rfl, rfl⟩ := h
  have hpos : 0 < k := by linarith
  have hzero : (0 : ℝ) < F32.lit (1 / 10 ^ 10) := by norm_num [F32.lit]
  have hraised : F32.lit (1 / 10 ^ 10) < k * t := by nlinarith
  rw [max_le_iff, max_le_iff, mul_le_mul_iff_right₀ hpos]
  simp only [ht.le, hraised.le, and_true]

theorem Raised.eq (h : Raised k x y) (hx : F32.lit (1 / 10 ^ 10) < x) : y = k * x := by
  obtain ⟨p, rfl, rfl⟩ := h
  have hp : F32.lit (1 / 10 ^ 10) < p := by
    rcases lt_max_iff.mp hx with hp | hfloor
    · exact hp
    · exact absurd hfloor (lt_irrefl _)
  have hzero : (0 : ℝ) < F32.lit (1 / 10 ^ 10) := by norm_num [F32.lit]
  rw [max_eq_left hp.le, max_eq_left (by nlinarith)]

end Raised

section Peaks

variable {k : ℝ} (hk : 1 ≤ k) {r r' : Nat → Spectrum ℝ}
  (hraised : ∀ j, ∀ c < 1025, Raised k (value (r j) c) (value (r' j) c))

include hk hraised

theorem spreadValue_lt_raised {t : ℝ} (ht : F32.lit (1 / 10 ^ 10) < t) (j c : Nat) (hc : c ≤ 1022) :
    spreadValue (r' j) c < k * t ↔ spreadValue (r j) c < t := by
  rw [spreadValue_lt_iff, spreadValue_lt_iff, (hraised j c (by omega)).lt_iff hk ht,
    (hraised j (c + 1) (by omega)).lt_iff hk ht, (hraised j (c + 2) (by omega)).lt_iff hk ht]

theorem spreadValue_le_raised {t : ℝ} (ht : F32.lit (1 / 10 ^ 10) < t) (j c : Nat) (hc : c ≤ 1022) :
    spreadValue (r' j) c ≤ k * t ↔ spreadValue (r j) c ≤ t := by
  rw [spreadValue_le_iff, spreadValue_le_iff, (hraised j c (by omega)).le_iff hk ht,
    (hraised j (c + 1) (by omega)).le_iff hk ht, (hraised j (c + 2) (by omega)).le_iff hk ht]

theorem retained_lt_raised {t : ℝ} (ht : F32.lit (1 / 10 ^ 10) < t) (q : Int) (c : Nat)
    (hc : c ≤ 1022) : retained r' q c < k * t ↔ retained r q c < t := by
  have hzero : (F32.lit 0 : ℝ) < F32.lit (1 / 10 ^ 10) := F32.zero_lt_floor
  have hpos : (F32.lit 0 : ℝ) < k * t := by
    norm_num [F32.lit] at hzero ht ⊢
    nlinarith
  rw [retained_lt_iff, retained_lt_iff]
  refine and_congr (iff_of_true hpos (hzero.trans ht)) (forall₂_congr fun j _ => ?_)
  exact spreadValue_lt_raised hk hraised ht _ c hc

theorem retained_le_raised {t : ℝ} (ht : F32.lit (1 / 10 ^ 10) < t) (q : Int) (c : Nat)
    (hc : c ≤ 1022) : retained r' q c ≤ k * t ↔ retained r q c ≤ t := by
  have hzero : (F32.lit 0 : ℝ) < F32.lit (1 / 10 ^ 10) := F32.zero_lt_floor
  have hpos : (F32.lit 0 : ℝ) < k * t := by
    norm_num [F32.lit] at hzero ht ⊢
    nlinarith
  rw [retained_le_iff, retained_le_iff]
  refine and_congr (iff_of_true hpos.le (hzero.trans ht).le) (forall₂_congr fun j _ => ?_)
  exact spreadValue_le_raised hk hraised ht _ c hc

/-- A bin that is loud enough is a peak when all is raised exactly if it was before. -/
theorem isPeak_raised (p b : Nat) (hb : b ≤ 1014) (hlarge : F32.lit (1 / 64) ≤ value (r p) b) :
    IsPeak r' p b ↔ IsPeak r p b := by
  have hfloor : F32.lit (1 / 10 ^ 10) < value (r p) b := F32.floor_lt_peak.trans_le hlarge
  have hvalue : value (r' p) b = k * value (r p) b := (hraised p b (by omega)).eq hk hfloor
  have hzero : (0 : ℝ) ≤ value (r p) b := by
    norm_num [F32.lit] at hlarge
    linarith
  rw [IsPeak, IsPeak, hvalue]
  refine and_congr (iff_of_true ?_ hlarge) (and_congr ?_ (and_congr ?_ ?_))
  · exact hlarge.trans (le_mul_of_one_le_left hzero hk)
  · exact retained_le_raised hk hraised hfloor _ _ (by omega)
  · refine forall₂_congr fun offset hoffset => retained_lt_raised hk hraised hfloor _ _ ?_
    have hbounds := neighborOffsets_bounds offset hoffset
    omega
  · exact forall₂_congr fun d _ => retained_lt_raised hk hraised hfloor _ _ (by omega)

/-- The peaks of a pass are those of the raised one that were loud enough before. -/
theorem mem_peakBins_raised (p b : Nat) :
    b ∈ peakBins r p ↔ b ∈ peakBins r' p ∧ F32.lit (1 / 64) ≤ value (r p) b := by
  rw [mem_peakBins, mem_peakBins]
  constructor
  · rintro ⟨hb, hpeak⟩
    exact ⟨⟨hb, (isPeak_raised hk hraised p b hb.2 hpeak.1).mpr hpeak⟩, hpeak.1⟩
  · rintro ⟨⟨hb, hpeak⟩, hlarge⟩
    exact ⟨hb, (isPeak_raised hk hraised p b hb.2 hlarge).mp hpeak⟩

end Peaks

section Spectra

variable {fft : Vector ℝ 2048 → Vector (ℝ × ℝ) 1025} {gain : ℝ} {s louder : List Int16}

theorem TurnedUp.sampleAt (h : TurnedUp gain s louder) (q : Int) :
    ((sampleAt louder q).toInt : ℝ) = gain * (sampleAt s q).toInt := by
  rw [SampleRing.sampleAt, SampleRing.sampleAt]
  split
  · exact h.samples q.toNat
  · simp

theorem TurnedUp.windowed (h : TurnedUp gain s louder) (k : Int) :
    (windowed (samplesOf louder k) : Vector ℝ 2048) =
      (windowed (samplesOf s k)).map (gain * ·) := by
  apply Vector.ext
  intro i hi
  rw [SampleRing.windowed, SampleRing.windowed, Vector.getElem_ofFn, Vector.getElem_map,
    Vector.getElem_ofFn]
  simp only [samplesOf, F32.mul, F32.ofInt, h.sampleAt, mul_assoc]

/-- A gain raises the power of every bin by its square. -/
theorem TurnedUp.raised (h : TurnedUp gain s louder) (hfft : Homogeneous fft) (k : Int) (c : Nat)
    (hc : c < 1025) :
    Raised (gain ^ 2) (value (spectrumAt fft s k) c) (value (spectrumAt fft louder k) c) := by
  refine ⟨power (fft (SampleRing.windowed (samplesOf s k)))[c], ?_, ?_⟩
  · rw [value_eq _ c hc, spectrumAt, realFftResults, Vector.getElem_map]
  · rw [value_eq _ c hc, spectrumAt, realFftResults, Vector.getElem_map, h.windowed, hfft,
      Vector.getElem_map]
    congr 1
    simp only [power, F32.div, F32.add, F32.mul]
    ring

end Spectra

section Landmarks

/-- The logarithm is not cut off at a bin, nor beside it. -/
def Clear (spectrum : Spectrum ℝ) (b : Nat) : Prop :=
  ∀ c ∈ [b - 1, b, b + 1], 1 / 64 ≤ Real.log (value spectrum c)

theorem logMagnitude_raised {k x y : ℝ} (hk : 1 ≤ k) (h : Raised k x y) (hpos : 0 < x)
    (hx : 1 / 64 ≤ Real.log x) : logMagnitude y = logMagnitude x + 14773 / 10 * Real.log k := by
  have hone : 1 < x := by
    rw [← Real.log_pos_iff hpos.le]
    linarith
  have hfloor : (F32.lit (1 / 10 ^ 10) : ℝ) < x := by
    norm_num [F32.lit]
    linarith
  have hlog : Real.log y = Real.log k + Real.log x := by
    rw [h.eq hk hfloor, Real.log_mul (by linarith) hpos.ne']
  have hgain : 0 ≤ Real.log k := Real.log_nonneg hk
  rw [logMagnitude_eq, logMagnitude_eq]
  change max (Real.log y) (1 / 64) * _ + _ = max (Real.log x) (1 / 64) * _ + _ + _
  rw [hlog, max_eq_left hx, max_eq_left (by linarith)]
  ring

/-- A correction between bins is not changed by what is added to all three magnitudes. -/
theorem peakVariation2_shift (before magnitude after d : ℝ) (hbefore : before ≤ magnitude)
    (hafter : after ≤ magnitude) :
    peakVariation2 (before + d) (magnitude + d) (after + d) =
      peakVariation2 before magnitude after := by
  rw [peakVariation2_eq _ _ _ (by linarith) (by linarith),
    peakVariation2_eq before magnitude after hbefore hafter]
  have hcurve : (magnitude + d) * 2 - (before + d) - (after + d) =
      magnitude * 2 - before - after := by ring
  have hslope : after + d - (before + d) = after - before := by ring
  rw [hcurve, hslope]

/-- The landmark of a clear bin when all is raised: its magnitude goes up, the rest stays. -/
theorem landmark_raised {k : ℝ} (hk : 1 ≤ k) {spectrum spectrum' : Spectrum ℝ}
    (hraised : ∀ c < 1025, Raised k (value spectrum c) (value spectrum' c))
    (hpos : ∀ c < 1025, 0 < value spectrum c) (o : Overflow) (num : UInt32) (b : Nat)
    (hlo : 10 ≤ b) (hhi : b ≤ 1014) (hclear : Clear spectrum b)
    (hbefore : value spectrum (b - 1) ≤ value spectrum b)
    (hafter : value spectrum (b + 1) ≤ value spectrum b) :
    landmark o num spectrum' b = (landmark o num spectrum b).map fun peak =>
      { peak with peakMagnitude := saturateU16 (F32.trunc
          (logMagnitude (value spectrum b) + 14773 / 10 * Real.log k)) } := by
  have hshift : ∀ c ∈ [b - 1, b, b + 1], logMagnitude (value spectrum' c) =
      logMagnitude (value spectrum c) + 14773 / 10 * Real.log k := by
    intro c hc
    have hc' : c < 1025 := by
      simp only [List.mem_cons, List.not_mem_nil, or_false] at hc
      omega
    exact logMagnitude_raised hk (hraised c hc') (hpos c hc') (hclear c hc)
  have hln : MonotoneOn (Ln.ln : ℝ → ℝ) (Set.Ioi 0) := Real.strictMonoOn_log.monotoneOn
  have hle := logMagnitude_le hln (hpos (b - 1) (by omega)) (hpos b (by omega)) hbefore
  have hge := logMagnitude_le hln (hpos (b + 1) (by omega)) (hpos b (by omega)) hafter
  obtain ⟨hdlo, hdhi⟩ := peakVariation2_bounds _ _ _ hle hge
  have hassert : F32.lit 0 ≤ peakVariation1 (logMagnitude (value spectrum (b - 1)))
      (logMagnitude (value spectrum b)) (logMagnitude (value spectrum (b + 1))) := by
    rw [literal_zero_le, peakVariation1_eq]
    linarith
  have hsame := peakVariation2_shift _ _ _ (14773 / 10 * Real.log k) hle hge
  have hassert' : F32.lit 0 ≤ peakVariation1
      (logMagnitude (value spectrum (b - 1)) + 14773 / 10 * Real.log k)
      (logMagnitude (value spectrum b) + 14773 / 10 * Real.log k)
      (logMagnitude (value spectrum (b + 1)) + 14773 / 10 * Real.log k) := by
    rw [literal_zero_le, peakVariation1_eq]
    linarith
  obtain ⟨-, -, hquiet⟩ := landmark_corrected o num spectrum b hlo hhi _ _ _ rfl rfl rfl hassert
    hdlo hdhi
  obtain ⟨-, -, hloud⟩ := landmark_corrected o num spectrum' b hlo hhi _ _ _
    (hshift (b - 1) (by simp)) (hshift b (by simp)) (hshift (b + 1) (by simp)) hassert'
    (hsame ▸ hdlo) (hsame ▸ hdhi)
  rw [hquiet, hloud, hsame, Option.map_map]
  rfl

/-- What a run puts into a band of a clear bin, the raised run puts there raised. -/
theorem mem_bandPeaks_raised {k : ℝ} (hk : 1 ≤ k) {r r' : Nat → Spectrum ℝ}
    (hraised : ∀ j, ∀ c < 1025, Raised k (value (r j) c) (value (r' j) c))
    (hpos : ∀ j, ∀ c < 1025, 0 < value (r j) c) {o : Overflow} {n p b : Nat}
    (hp : p ∈ examined n) (hb : b ∈ peakBins r p) {band : FrequencyBand} {peak : FrequencyPeak}
    (h : landmarkIn o (UInt32.ofNat (p + 46)) (r p) band b = some peak) (hclear : Clear (r p) b) :
    { peak with peakMagnitude := saturateU16 (F32.trunc
        (logMagnitude (value (r p) b) + 14773 / 10 * Real.log k)) } ∈ bandPeaks o r' n band := by
  obtain ⟨hlandmark, hin⟩ := Option.filter_eq_some_iff.mp h
  obtain ⟨⟨hlo, hhi⟩, hpeak⟩ := (mem_peakBins r p b).mp hb
  have hbefore := hpeak.value_lt (b - 1) (by omega) (by omega) (by omega) hlo
  have hafter := hpeak.value_lt (b + 1) (by omega) (by omega) (by omega) hlo
  have hloud := landmark_raised hk (hraised p) (hpos p) o (UInt32.ofNat (p + 46)) b hlo hhi hclear
    hbefore.le hafter.le
  rw [hlandmark, Option.map_some] at hloud
  rw [bandPeaks, List.mem_flatMap]
  refine ⟨p, hp, ?_⟩
  rw [landmarksIn, List.mem_filterMap]
  refine ⟨b, ((mem_peakBins_raised hk hraised p b).mp hb).1, ?_⟩
  rw [landmarkIn, hloud]
  exact Option.filter_some_pos hin

end Landmarks

/-- Turned up, a recording has all its peaks, in their passes and bins, and others only where it
was too quiet for one. Each of its landmarks that is clear of the cut of the logarithm is there,
in its band and place, louder by the gain. -/
theorem turned_up (o : Overflow) (fft : Vector ℝ 2048 → Vector (ℝ × ℝ) 1025)
    (hfft : Homogeneous fft) (gain : ℝ) (hgain : 1 ≤ gain) (s louder : List Int16)
    (hturned : TurnedUp gain s louder) (hlength : s.length ≤ 2 ^ 30) :
    ∃ quiet loud, makeSignatureFromBuffer o fft s = some quiet ∧
      makeSignatureFromBuffer o fft louder = some loud ∧
      (∀ p, p + 46 ≤ s.length / 128 → ∀ b,
        b ∈ peakBins (fun k => spectrumAt fft s k) p ↔
          b ∈ peakBins (fun k => spectrumAt fft louder k) p ∧
            1 / 64 ≤ value (spectrumAt fft s p) b) ∧
      ∀ band, ∀ peak ∈ peaksOf quiet band, ∃ b,
        landmark o (peak.fftPassNumber + 46) (spectrumAt fft s peak.fftPassNumber.toNat) b =
          some peak ∧
        (Clear (spectrumAt fft s peak.fftPassNumber.toNat) b →
          { peak with peakMagnitude := saturateU16 (F32.trunc
              (logMagnitude (value (spectrumAt fft s peak.fftPassNumber.toNat) b) +
                14773 / 10 * Real.log (gain ^ 2))) } ∈ peaksOf loud band) := by
  have hk : 1 ≤ gain ^ 2 := one_le_pow₀ hgain
  have hraised : ∀ j : Nat, ∀ c < 1025,
      Raised (gain ^ 2) (value (spectrumAt fft s j) c) (value (spectrumAt fft louder j) c) :=
    fun j c hc => hturned.raised hfft j c hc
  obtain ⟨quiet, hquiet, -⟩ := SignatureSize.signature_encodable o fft s hlength
  obtain ⟨loud, hloud, -⟩ :=
    SignatureSize.signature_encodable o fft louder (hturned.length ▸ hlength)
  refine ⟨quiet, loud, hquiet, hloud, fun p _ b => ?_, fun band peak hpeak => ?_⟩
  · have hfloor : (F32.lit (1 / 64) : ℝ) = 1 / 64 := by norm_num [F32.lit]
    rw [mem_peakBins_raised hk hraised, hfloor]
  rw [makeSignatureFromBuffer_eq o fft louder (by rw [hturned.length]; omega),
    Option.map_eq_some_iff, hturned.length] at hloud
  obtain ⟨bands, hrecord, rfl⟩ := hloud
  obtain ⟨p, b, hp, hb, hlandmarkIn, hnumber, hpass⟩ :=
    landmarkIn_of_mem_peaksOf (by omega) hquiet hpeak
  rw [hnumber, hpass, peaksOf_setBands hrecord]
  exact ⟨b, Option.eq_some_of_filter_eq_some hlandmarkIn,
    mem_bandPeaks_raised hk hraised
      (fun j c hc => Acceptance.value_spectrumAt_pos fft s j c hc) ((mem_examined _ p).mpr hp) hb
      hlandmarkIn⟩

section Clap

def louderClap : List Int16 := 2048 :: List.replicate (128 * 53 - 1) 0

theorem louderClap_turnedUp : TurnedUp 2 clap louderClap where
  length := rfl
  samples i := by
    cases i with
    | zero =>
      have hloud : (2048 : Int16).toInt = 2048 := by decide
      have hquiet : (1024 : Int16).toInt = 1024 := by decide
      rw [louderClap, clap, pulse, List.getD_cons_zero, List.getD_cons_zero, hloud, hquiet]
      norm_num
    | succ i =>
      have hsilent : (List.replicate (128 * 53 - 1) (0 : Int16)).getD i 0 = 0 := by
        rw [List.getD_eq_getElem?_getD, List.getElem?_replicate]
        split <;> rfl
      rw [louderClap, clap, pulse, List.getD_cons_succ, List.getD_cons_succ, hsilent]
      simp

theorem ear_homogeneous : Homogeneous ear := by
  intro gain window
  apply Vector.ext
  intro c hc
  have hget : (window.map (gain * ·)).get 1024 = gain * window.get 1024 := by simp [Vector.get]
  simp only [ear, Vector.getElem_ofFn, Vector.getElem_map, hget]
  split
  · rw [mul_div_assoc, mul_zero]
  · rw [mul_zero]

/-- The clap is still found, in its pass and bin. -/
theorem clap_turned_up : ∃ quiet loud, makeSignatureFromBuffer .panics ear clap = some quiet ∧
    makeSignatureFromBuffer .panics ear louderClap = some loud ∧
      100 ∈ peakBins (fun k => spectrumAt ear louderClap k) 7 := by
  have hlength : clap.length = 128 * 53 := by rw [clap, length_pulse]
  obtain ⟨quiet, loud, hquiet, hloud, hpeaks, -⟩ := turned_up .panics ear ear_homogeneous 2
    one_le_two clap louderClap louderClap_turnedUp (by omega)
  have hfound := (hpeaks 7 (by omega) 100).mp (by
    rw [clap, spectrumAt_pulse, mem_peakBins_spike]
    exact ⟨rfl, rfl⟩)
  exact ⟨quiet, loud, hquiet, hloud, hfound.1⟩

end Clap

end Loudness
