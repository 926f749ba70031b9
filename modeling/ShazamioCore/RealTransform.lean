import Mathlib
import ShazamioCore.ChunkRuns
import ShazamioCore.LongerAudio

/-!
# What the transform is trusted with

A bin of a real transform is a sum of the samples turned by angles: no larger than the sum of
their sizes, and turned round with them. So no window of 16-bit samples makes a magnitude that
the landmark cannot hold, silence has no power, and the polarity of a recording is not heard.
-/
namespace RealTransform

open MachineInt SignatureFormat Algorithm PeakDetection GeneratorRun StreamingPeaks SampleRing
  Locality LongerAudio

section Turned

/-- A sum of values turned by angles is no larger than the sum of their sizes. -/
theorem turned_le {ι : Type} [Fintype ι] (x θ : ι → ℝ) :
    (∑ i, x i * Real.cos (θ i)) ^ 2 + (∑ i, x i * Real.sin (θ i)) ^ 2 ≤ (∑ i, |x i|) ^ 2 := by
  have hsplit : ∑ i, (x i : ℂ) * Complex.exp (θ i * Complex.I) =
      ((∑ i, x i * Real.cos (θ i) : ℝ) : ℂ) +
        ((∑ i, x i * Real.sin (θ i) : ℝ) : ℂ) * Complex.I := by
    push_cast
    rw [Finset.sum_mul, ← Finset.sum_add_distrib]
    refine Finset.sum_congr rfl fun i _ => ?_
    rw [Complex.exp_mul_I]
    ring
  have hnorm : ‖∑ i, (x i : ℂ) * Complex.exp (θ i * Complex.I)‖ ≤ ∑ i, |x i| := by
    refine (norm_sum_le _ _).trans (Finset.sum_le_sum fun i _ => ?_)
    rw [norm_mul, Complex.norm_exp_ofReal_mul_I, mul_one, Complex.norm_real, Real.norm_eq_abs]
  rw [hsplit] at hnorm
  have hsquare := pow_le_pow_left₀ (norm_nonneg _) hnorm 2
  rwa [Complex.sq_norm, Complex.normSq_add_mul_I] at hsquare

end Turned

/-- What is asked of the transform: its bins are bounded by the sizes of the samples, and a
window turned round has its bins turned round. -/
structure Trusted (fft : Vector ℝ 2048 → Vector (ℝ × ℝ) 1025) : Prop where
  bounded : ∀ window, ∀ c : Fin 1025,
    ((fft window).get c).1 ^ 2 + ((fft window).get c).2 ^ 2 ≤ (∑ i : Fin 2048, |window.get i|) ^ 2
  odd : ∀ window, fft (window.map fun x => -x) = (fft window).map fun z => (-z.1, -z.2)

noncomputable def realDft (window : Vector ℝ 2048) : Vector (ℝ × ℝ) 1025 :=
  Vector.ofFn fun c =>
    (∑ i : Fin 2048, window.get i * Real.cos ((-(2 * c * i) / 2048 : Rat) * Real.pi),
      ∑ i : Fin 2048, window.get i * Real.sin ((-(2 * c * i) / 2048 : Rat) * Real.pi))

theorem realDft_trusted : Trusted realDft where
  bounded window c := by
    simp only [realDft, Vector.get_ofFn]
    exact turned_le _ _
  odd window := by
    apply Vector.ext
    intro c hc
    have hget : ∀ i : Fin 2048, (window.map fun x => -x).get i = -window.get i := by
      intro i
      simp [Vector.get]
    simp only [realDft, Vector.getElem_ofFn, Vector.getElem_map, hget, neg_mul,
      Finset.sum_neg_distrib]

section Windows

/-- The window takes no sample above its size. -/
theorem hanning_le_one : ∀ i < 2048, 0 ≤ Hanning.hanningWindow2048Multipliers i ∧
    Hanning.hanningWindow2048Multipliers i ≤ 1 := by
  have htable : ∀ n ∈ Hanning.tenBillionths, n ≤ 10 ^ 10 := by decide +kernel
  intro i hi
  have hmem : Hanning.tenBillionths.getD i 0 ≤ 10 ^ 10 := by
    rw [List.getD_eq_getElem _ _ (by rw [Hanning.tenBillionths_length]; exact hi)]
    exact htable _ (List.getElem_mem _)
  have hcast : ((Hanning.tenBillionths.getD i 0 : Nat) : Rat) ≤ 10 ^ 10 := by exact_mod_cast hmem
  rw [Hanning.hanningWindow2048Multipliers]
  constructor
  · positivity
  · rw [div_le_one (by positivity)]
    exact hcast

theorem windowed_le (window : Fin 2048 → Int16) (i : Fin 2048) :
    |(windowed window : Vector ℝ 2048).get i| ≤ 2 ^ 15 := by
  obtain ⟨hnonneg, hone⟩ := hanning_le_one i i.isLt
  have hsample : |((window i).toInt : ℝ)| ≤ 2 ^ 15 := by
    have hlo := (window i).le_toInt
    have hhi := (window i).toInt_lt
    rw [← Int.cast_abs]
    have habs : |(window i).toInt| ≤ 2 ^ 15 := by
      rw [abs_le]
      omega
    exact_mod_cast habs
  rw [ChunkRuns.windowed_get]
  change |((window i).toInt : ℝ) * ((Hanning.hanningWindow2048Multipliers i : Rat) : ℝ)| ≤ _
  rw [abs_mul]
  have hmultiplier : |((Hanning.hanningWindow2048Multipliers i : Rat) : ℝ)| ≤ 1 := by
    rw [abs_of_nonneg (by exact_mod_cast hnonneg)]
    exact_mod_cast hone
  calc |((window i).toInt : ℝ)| * |((Hanning.hanningWindow2048Multipliers i : Rat) : ℝ)|
      ≤ 2 ^ 15 * 1 := by gcongr
    _ = 2 ^ 15 := mul_one _

variable {fft : Vector ℝ 2048 → Vector (ℝ × ℝ) 1025} (hfft : Trusted fft)

include hfft

theorem Trusted.bin_le (window : Vector ℝ 2048) (c : Nat) (hc : c < 1025) :
    (fft window)[c].1 ^ 2 + (fft window)[c].2 ^ 2 ≤ (∑ i : Fin 2048, |window.get i|) ^ 2 :=
  hfft.bounded window ⟨c, hc⟩

theorem Trusted.silenceToZero : SilenceToZero fft := by
  intro c
  have hbound := hfft.bin_le (windowed fun _ => 0) c c.isLt
  have hzero : ∀ i : Fin 2048, (windowed (fun _ => 0) : Vector ℝ 2048).get i = 0 := by
    intro i
    rw [ChunkRuns.windowed_get]
    simp [F32.mul, F32.ofInt]
  simp only [hzero, abs_zero, Finset.sum_const_zero, ne_eq, OfNat.ofNat_ne_zero,
    not_false_eq_true, zero_pow] at hbound
  have hreal := sq_nonneg ((fft (windowed fun _ => 0))[c.val]).1
  have himaginary := sq_nonneg ((fft (windowed fun _ => 0))[c.val]).2
  have hsum : ((fft (windowed fun _ => 0))[c.val]).1 * ((fft (windowed fun _ => 0))[c.val]).1 +
      ((fft (windowed fun _ => 0))[c.val]).2 * ((fft (windowed fun _ => 0))[c.val]).2 = 0 := by
    nlinarith
  change (_ + _) / _ = ((0 : Rat) : ℝ)
  simp only [F32.mul, Fin.getElem_fin]
  rw [hsum, zero_div, Rat.cast_zero]

/-- No window of a buffer has more than 2^35 in a bin. -/
theorem Trusted.spectrum_le (s : List Int16) (k : Int) (c : Nat) (hc : c < 1025) :
    value (spectrumAt fft s k) c ≤ 2 ^ 35 := by
  have hsum : ∑ i : Fin 2048, |(windowed (samplesOf s k) : Vector ℝ 2048).get i| ≤ 2 ^ 26 := by
    calc ∑ i : Fin 2048, |(windowed (samplesOf s k) : Vector ℝ 2048).get i|
        ≤ ∑ _i : Fin 2048, (2 : ℝ) ^ 15 := Finset.sum_le_sum fun i _ => windowed_le _ i
      _ = 2 ^ 26 := by
        rw [Finset.sum_const, Finset.card_univ, Fintype.card_fin]
        norm_num
  have hbound := hfft.bin_le (windowed (samplesOf s k)) c hc
  have hnonneg : 0 ≤ ∑ i : Fin 2048, |(windowed (samplesOf s k) : Vector ℝ 2048).get i| :=
    Finset.sum_nonneg fun i _ => abs_nonneg _
  have hsquare := hbound.trans (pow_le_pow_left₀ hnonneg hsum 2)
  rw [value_eq _ c hc, spectrumAt, realFftResults, Vector.getElem_map, max_le_iff]
  constructor
  · have hpower : power (fft (windowed (samplesOf s k)))[c] =
        ((fft (windowed (samplesOf s k)))[c].1 ^ 2 + (fft (windowed (samplesOf s k)))[c].2 ^ 2) /
          2 ^ 17 := by
      simp only [power, F32.div, F32.add, F32.mul, F32.ofInt]
      push_cast
      ring
    rw [hpower, div_le_iff₀ (by positivity)]
    calc _ ≤ ((2 : ℝ) ^ 26) ^ 2 := hsquare
      _ = 2 ^ 35 * 2 ^ 17 := by norm_num
  · change (((1 / 10 ^ 10 : Rat)) : ℝ) ≤ 2 ^ 35
    norm_num

end Windows

section Magnitude

theorem logMagnitude_range (x : ℝ) (hpos : 0 < x) (hx : x ≤ 2 ^ 35) :
    6167 ≤ logMagnitude x ∧ logMagnitude x < 41984 := by
  have hlog : Real.log x ≤ 35 * Real.log 2 := by
    calc Real.log x ≤ Real.log (2 ^ 35) := Real.log_le_log hpos hx
      _ = 35 * Real.log 2 := by
        rw [Real.log_pow]
        norm_num
  have htwo := Real.log_two_lt_d9
  rw [Interpolation.logMagnitude_eq]
  change 6167 ≤ max (Real.log x) (1 / 64) * (14773 / 10) + 6144 ∧
    max (Real.log x) (1 / 64) * (14773 / 10) + 6144 < 41984
  constructor
  · have hfloor : (1 / 64 : ℝ) ≤ max (Real.log x) (1 / 64) := le_max_right _ _
    linarith
  · have hceil : max (Real.log x) (1 / 64) ≤ 35 * 0.6931471808 := by
      rw [max_le_iff]
      constructor
      · linarith
      · norm_num
    linarith

/-- A magnitude in range is cut to its integer part and to nothing else. -/
theorem saturateU16_magnitude (magnitude : ℝ) (hlo : 6167 ≤ magnitude) (hhi : magnitude < 41984) :
    ((saturateU16 (F32.trunc magnitude)).toNat : Int) = ⌊magnitude⌋ ∧ 6167 ≤ ⌊magnitude⌋ ∧
      ⌊magnitude⌋ ≤ 41983 := by
  have hfloor : 6167 ≤ ⌊magnitude⌋ := Int.le_floor.mpr (by exact_mod_cast hlo)
  have hceil : ⌊magnitude⌋ < 41984 := Int.floor_lt.mpr (by exact_mod_cast hhi)
  have htrunc : F32.trunc magnitude = ⌊magnitude⌋ := if_pos (by linarith)
  refine ⟨?_, hfloor, by omega⟩
  rw [htrunc, saturateU16, saturate_of_mem _ _ _ (by omega) (by omega), UInt16.toNat_ofNat']
  omega

theorem landmark_magnitude {o : Overflow} {num : UInt32} {spectrum : Spectrum ℝ} {b : Nat}
    (hb : b < 1025) {peak : FrequencyPeak} (h : landmark o num spectrum b = some peak) :
    peak.peakMagnitude = saturateU16 (F32.trunc (logMagnitude (value spectrum b))) := by
  simp only [landmark, getElem?_eq_value spectrum b hb, Option.bind_eq_bind,
    Option.bind_eq_some_iff, Option.pure_def, Option.some.injEq, exists_eq_left'] at h
  obtain ⟨_, -, _, -, _, -, _, -, _, -, rfl⟩ := h
  rfl

end Magnitude

/-- A landmark of a signature is that of a peak of the pass it numbers. -/
theorem landmarkIn_of_mem_peaksOf {α : Type} [LinearOrder α] [F32 α] {o : Overflow}
    {fft : Vector α 2048 → Vector (α × α) 1025} {s : List Int16} (hs : s.length / 128 < 2 ^ 32)
    {signature : DecodedSignature} (h : makeSignatureFromBuffer o fft s = some signature)
    {band : FrequencyBand} {peak : FrequencyPeak} (hpeak : peak ∈ peaksOf signature band) :
    ∃ p b, p + 46 ≤ s.length / 128 ∧ b ∈ peakBins (fun k => spectrumAt fft s k) p ∧
      landmarkIn o (UInt32.ofNat (p + 46)) (spectrumAt fft s p) band b = some peak ∧
      peak.fftPassNumber.toNat = p ∧ peak.fftPassNumber + 46 = UInt32.ofNat (p + 46) := by
  rw [makeSignatureFromBuffer_eq o fft s hs, Option.map_eq_some_iff] at h
  obtain ⟨bands, hrecord, rfl⟩ := h
  rw [peaksOf_setBands hrecord, bandPeaks, List.mem_flatMap] at hpeak
  obtain ⟨p, hp, hmem⟩ := hpeak
  rw [mem_examined] at hp
  have hnumber := landmarksIn_fftPassNumber (by omega) hmem
  rw [landmarksIn, List.mem_filterMap] at hmem
  obtain ⟨b, hb, hlandmark⟩ := hmem
  refine ⟨p, b, hp, hb, hlandmark, hnumber, ?_⟩
  rw [← hnumber, UInt32.ofNat_add, UInt32.ofNat_toNat]
  rfl

/-- Every landmark of a recording is that of a peak in one bin of its pass, and its magnitude is
the integer part of what the code computes for that bin, between 6167 and 41983: no cast cuts it
off. -/
theorem magnitudes_fit (o : Overflow) (fft : Vector ℝ 2048 → Vector (ℝ × ℝ) 1025)
    (hfft : Trusted fft) (s : List Int16) (hs : s.length / 128 < 2 ^ 32)
    (signature : DecodedSignature) (h : makeSignatureFromBuffer o fft s = some signature)
    (band : FrequencyBand) (peak : FrequencyPeak) (hpeak : peak ∈ peaksOf signature band) :
    ∃ b, b ∈ peakBins (fun k => spectrumAt fft s k) peak.fftPassNumber.toNat ∧
      landmark o (peak.fftPassNumber + 46) (spectrumAt fft s peak.fftPassNumber.toNat) b =
        some peak ∧
      (peak.peakMagnitude.toNat : Int) =
        ⌊logMagnitude (value (spectrumAt fft s peak.fftPassNumber.toNat) b)⌋ ∧
      6167 ≤ peak.peakMagnitude.toNat ∧ peak.peakMagnitude.toNat ≤ 41983 := by
  obtain ⟨p, b, hp, hb, hlandmarkIn, hnumber, hpass⟩ := landmarkIn_of_mem_peaksOf hs h hpeak
  have hlandmark := Option.eq_some_of_filter_eq_some hlandmarkIn
  obtain ⟨⟨hlo, hhi⟩, hlarge, -⟩ := (mem_peakBins _ p b).mp hb
  have hpos : 0 < value (spectrumAt fft s p) b :=
    Acceptance.value_spectrumAt_pos fft s p b (by omega)
  obtain ⟨hfloor, hceil⟩ := logMagnitude_range _ hpos (hfft.spectrum_le s p b (by omega))
  obtain ⟨hexact, hmin, hmax⟩ := saturateU16_magnitude _ hfloor hceil
  have hmagnitude := landmark_magnitude (by omega) hlandmark
  rw [hnumber, hpass]
  refine ⟨b, hb, hlandmark, ?_⟩
  rw [hmagnitude]
  omega

section Clap

/-- A transform that hears one sample in the middle of the window, in one bin. -/
noncomputable def ear (window : Vector ℝ 2048) : Vector (ℝ × ℝ) 1025 :=
  Vector.ofFn fun c =>
    if c.val = 100 then
      (window.get 1024 / (2 * Hanning.hanningWindow2048Multipliers 1024 : Rat), 0)
    else (0, 0)

def pulse (n : Nat) : List Int16 := 1024 :: List.replicate n 0

@[simp] theorem length_pulse (n : Nat) : (pulse n).length = n + 1 := by
  rw [pulse, List.length_cons, List.length_replicate]

/-- The silence lasts for the rest of 53 passes. -/
def clap : List Int16 := pulse (128 * 53 - 1)

theorem hanning_middle : (1 / 2 : ℝ) ≤ (Hanning.hanningWindow2048Multipliers 1024 : Rat) := by
  have hhalf : (1 / 2 : Rat) ≤ Hanning.hanningWindow2048Multipliers 1024 := by decide +kernel
  calc (1 / 2 : ℝ) = ((1 / 2 : Rat) : ℝ) := by norm_num
    _ ≤ (Hanning.hanningWindow2048Multipliers 1024 : Rat) := Rat.cast_le.mpr hhalf

theorem ear_trusted : Trusted ear where
  bounded window c := by
    have hmiddle := hanning_middle
    simp only [ear, Vector.get_ofFn]
    push_cast
    split
    · have hone : |window.get 1024| ≤ ∑ i : Fin 2048, |window.get i| :=
        Finset.single_le_sum (fun i _ => abs_nonneg (window.get i)) (Finset.mem_univ 1024)
      have hscaled : |window.get 1024 / (2 * (Hanning.hanningWindow2048Multipliers 1024 : Rat))| ≤
          |window.get 1024| := by
        rw [abs_div]
        apply div_le_self (abs_nonneg _)
        rw [abs_of_pos (by linarith)]
        linarith
      have hsquare := pow_le_pow_left₀ (abs_nonneg _) (hscaled.trans hone) 2
      rw [sq_abs] at hsquare
      simpa using hsquare
    · simp only [ne_eq, OfNat.ofNat_ne_zero, not_false_eq_true, zero_pow, add_zero]
      exact sq_nonneg _
  odd window := by
    apply Vector.ext
    intro c hc
    have hget : (window.map fun x => -x).get 1024 = -window.get 1024 := by simp [Vector.get]
    simp only [ear, Vector.getElem_ofFn, Vector.getElem_map, hget]
    split
    · rw [neg_div, neg_zero]
    · rw [neg_zero]

theorem sampleAt_pulse (n : Nat) (q : Int) :
    sampleAt (pulse n) q = if q = 0 then 1024 else 0 := by
  rw [sampleAt]
  by_cases hq : 0 ≤ q
  · obtain ⟨i, rfl⟩ := Int.eq_ofNat_of_zero_le hq
    rw [if_pos hq, Int.toNat_natCast]
    cases i with
    | zero => rfl
    | succ i =>
      rw [if_neg (by omega), pulse, List.getD_cons_succ, List.getD_eq_getElem?_getD,
        List.getElem?_replicate]
      split <;> rfl
  · rw [if_neg hq, if_neg (by omega)]

theorem ear_windowed (window : Fin 2048 → Int16) (c : Nat) (hc : c < 1025) :
    power (ear (windowed window))[c] =
      if c = 100 then ((window 1024).toInt : ℝ) ^ 2 / 2 ^ 19 else 0 := by
  have hmiddle := hanning_middle
  have hread : (windowed window : Vector ℝ 2048).get 1024 =
      ((window 1024).toInt : ℝ) * (Hanning.hanningWindow2048Multipliers 1024 : Rat) := by
    rw [ChunkRuns.windowed_get]
    rfl
  rw [ear, Vector.getElem_ofFn]
  simp only [hread]
  split
  · have hne : ((Hanning.hanningWindow2048Multipliers 1024 : Rat) : ℝ) ≠ 0 := by linarith
    rw [Rat.cast_mul, Rat.cast_ofNat, mul_comm 2, ← div_div, mul_div_cancel_right₀ _ hne]
    norm_num [power, F32.div, F32.add, F32.mul, F32.ofInt]
    ring
  · norm_num [power, F32.div, F32.add, F32.mul, F32.ofInt]

/-- The pulse comes to the middle of the window in pass 7. -/
theorem spectrumAt_pulse (n : Nat) : (fun k : Nat => spectrumAt ear (pulse n) k) = spike 7 := by
  funext k
  apply Vector.ext
  intro c hc
  have hposition : 128 * ((k : Int) + 1) - 2048 + ((1024 : Fin 2048).val : Int) = 0 ↔ k = 7 := by
    rw [show ((1024 : Fin 2048).val : Int) = 1024 from rfl]
    omega
  rw [spectrumAt, realFftResults, Vector.getElem_map, ear_windowed, samplesOf, sampleAt_pulse,
    spike, Vector.getElem_ofFn]
  have hloud : (1024 : Int16).toInt = 1024 := by decide
  have hsilent : (0 : Int16).toInt = 0 := by decide
  simp only [hposition]
  by_cases hbin : c = 100
  · by_cases hk : k = 7
    · rw [if_pos hbin, if_pos hk, if_pos ⟨hk, hbin⟩, hloud]
      norm_num [F32.lit]
    · rw [if_pos hbin, if_neg hk, if_neg fun h => hk h.1, hsilent]
      norm_num [F32.lit]
  · rw [if_neg hbin, if_neg fun h => hbin h.2]
    norm_num [F32.lit]

/-- The pulse is a landmark of pass 7, once that pass is searched. -/
theorem pulse_found (n : Nat) (hn : 128 * 53 ≤ n + 1) (hpasses : (n + 1) / 128 < 2 ^ 32) :
    ∃ signature peak, makeSignatureFromBuffer .panics ear (pulse n) = some signature ∧
      peak ∈ peaksOf signature ._520_1450 ∧ peak.fftPassNumber.toNat = 7 := by
  obtain ⟨bands, hbands⟩ := record_spike .panics 7 ((n + 1) / 128) (Or.inl (by norm_num))
  have hmake := makeSignatureFromBuffer_eq .panics ear (pulse n) (by rwa [length_pulse])
  rw [spectrumAt_pulse, length_pulse, hbands, Option.map_some] at hmake
  have hpeaks := bandPeaks_spike .panics 7 ((n + 1) / 128) (Or.inl (by norm_num)) (by omega)
  rw [← peaksOf_setBands hbands] at hpeaks
  obtain ⟨peak, hpeak⟩ := List.exists_mem_of_ne_nil _ hpeaks
  obtain ⟨p, b, -, hb, -, hnumber, -⟩ :=
    landmarkIn_of_mem_peaksOf (by rwa [length_pulse]) hmake hpeak
  rw [spectrumAt_pulse, mem_peakBins_spike] at hb
  exact ⟨_, peak, hmake, hpeak, hnumber.trans hb.1⟩

/-- The clap is found, and its magnitude is in range. -/
theorem clap_fits : ∃ signature peak b,
    makeSignatureFromBuffer .panics ear clap = some signature ∧
      peak ∈ peaksOf signature ._520_1450 ∧
      landmark .panics (peak.fftPassNumber + 46)
        (spectrumAt ear clap peak.fftPassNumber.toNat) b = some peak ∧
      6167 ≤ peak.peakMagnitude.toNat ∧ peak.peakMagnitude.toNat ≤ 41983 := by
  obtain ⟨signature, peak, hmake, hpeak, -⟩ := pulse_found (128 * 53 - 1) (by omega) (by norm_num)
  obtain ⟨b, -, hlandmark, -, hmin, hmax⟩ := magnitudes_fit .panics ear ear_trusted clap
    (by rw [clap, length_pulse]; norm_num) signature hmake ._520_1450 peak hpeak
  exact ⟨signature, peak, b, hmake, hpeak, hlandmark, hmin, hmax⟩

end Clap

def inverted (s : List Int16) : List Int16 := s.map fun x => -x

section Inverted

theorem toInt_neg_of_ne {x : Int16} (h : x ≠ Int16.minValue) : (-x).toInt = -x.toInt := by
  have hlo := x.le_toInt
  have hhi := x.toInt_lt
  have hne : x.toInt ≠ -2 ^ 15 := fun heq => h (Int16.toInt_inj.mp heq)
  rw [Int16.toInt_neg, Int.bmod_eq_of_le (by omega) (by omega)]

theorem sampleAt_inverted (s : List Int16) (q : Int) : sampleAt (inverted s) q = -sampleAt s q := by
  rw [sampleAt, sampleAt, inverted]
  split
  · rw [List.getD_eq_getElem?_getD, List.getD_eq_getElem?_getD, List.getElem?_map]
    cases s[q.toNat]? with
    | none => rfl
    | some x => rfl
  · rfl

theorem windowed_inverted {s : List Int16} (hs : ∀ x ∈ s, x ≠ Int16.minValue) (k : Int) :
    (windowed (samplesOf (inverted s) k) : Vector ℝ 2048) =
      (windowed (samplesOf s k)).map fun x => -x := by
  have hsample : ∀ q, sampleAt s q ≠ Int16.minValue := by
    intro q
    rw [sampleAt]
    split
    · rw [List.getD_eq_getElem?_getD]
      cases hget : s[q.toNat]? with
      | none => decide
      | some x => exact hs x (List.mem_of_getElem? hget)
    · decide
  apply Vector.ext
  intro i hi
  rw [windowed, windowed, Vector.getElem_ofFn, Vector.getElem_map, Vector.getElem_ofFn, samplesOf,
    samplesOf, sampleAt_inverted, toInt_neg_of_ne (hsample _)]
  change ((-_ : Int) : ℝ) * _ = -((_ : Int) * _)
  push_cast
  ring

end Inverted

/-- A recording and its inverse have one signature, where the inverse can be written: no sample
is at the bottom of the range. -/
theorem polarity_unheard (o : Overflow) (fft : Vector ℝ 2048 → Vector (ℝ × ℝ) 1025)
    (hfft : Trusted fft) (s : List Int16) (hlength : s.length / 128 < 2 ^ 32)
    (hs : ∀ x ∈ s, x ≠ Int16.minValue) :
    makeSignatureFromBuffer o fft (inverted s) = makeSignatureFromBuffer o fft s := by
  have hinverted : (inverted s).length = s.length := List.length_map _
  have hspectra : ∀ k : Int, spectrumAt fft (inverted s) k = spectrumAt fft s k := by
    intro k
    rw [spectrumAt, spectrumAt, windowed_inverted hs, hfft.odd, realFftResults, realFftResults,
      Vector.map_map]
    congr 1
    funext z
    simp only [Function.comp_apply, power, F32.div, F32.add, F32.mul, neg_mul_neg]
  simp only [makeSignatureFromBuffer_eq o fft _ (hinverted ▸ hlength),
    makeSignatureFromBuffer_eq o fft s hlength, hspectra, hinverted]

theorem clap_inverted : makeSignatureFromBuffer .panics realDft (inverted clap) =
    makeSignatureFromBuffer .panics realDft clap := by
  apply polarity_unheard .panics realDft realDft_trusted clap
  · rw [clap, length_pulse]
    norm_num
  · intro x hx
    rw [clap, pulse, List.mem_cons, List.mem_replicate] at hx
    rcases hx with rfl | ⟨-, rfl⟩
    · decide
    · decide

end RealTransform
