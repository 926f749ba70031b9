import Mathlib
import ShazamioCore.Locality
import ShazamioCore.SignatureSize

/-!
# Audio before and after

More audio after a buffer revises nothing: the landmarks it has stay where they are, and what
comes after them belongs to later passes. Whole chunks of silence before a buffer only renumber
its landmarks, as many passes later as there are chunks.
-/
namespace LongerAudio

open MachineInt SignatureFormat Algorithm PeakDetection GeneratorRun StreamingPeaks SampleRing
  Locality

variable {α : Type} [LinearOrder α] [F32 α]

def peaksOf (signature : DecodedSignature) (band : FrequencyBand) : List FrequencyPeak :=
  (signature.frequencyBandToSoundPeaks.lookup band).getD []

theorem peaksOf_setBands {o : Overflow} {r : Nat → Spectrum α} {n : Nat} {bands : Bands}
    (h : record o r n = some bands) (signature : DecodedSignature) (band : FrequencyBand) :
    peaksOf (setBands signature bands) band = bandPeaks o r n band := by
  rw [peaksOf, setBands_bands, lookup_record h band]
  split
  · rename_i hnil
    rw [hnil]
    rfl
  · rfl

section After

variable {r r' : Nat → Spectrum α}

theorem retained_congr (q : Int) (c : Nat) (h : ∀ j : Nat, j ≤ q + 6 → r j = r' j) :
    retained r q c = retained r' q c := by
  apply eq_of_forall_ge_iff
  intro x
  rw [retained_le_iff, retained_le_iff]
  refine and_congr_right fun _ => forall₂_congr fun j hj => ?_
  rw [mem_keptPasses] at hj
  rw [h j.toNat (by omega)]

/-- A peak is settled 45 passes after its own. -/
theorem isPeak_congr (p b : Nat) (h : ∀ j ≤ p + 45, r j = r' j) : IsPeak r p b ↔ IsPeak r' p b := by
  have hadjacent : ∀ e ∈ adjacentPasses, -45 ≤ e ∧ e ≤ 39 := by decide
  have hretained : ∀ q : Int, q ≤ p + 39 → ∀ c, retained r q c = retained r' q c :=
    fun q hq c => retained_congr q c fun j hj => h j (by omega)
  rw [IsPeak, IsPeak, h p (by omega)]
  refine and_congr_right fun _ => and_congr ?_ (and_congr ?_ ?_)
  · rw [hretained _ (by omega)]
  · refine forall₂_congr fun offset _ => ?_
    rw [hretained _ (by omega)]
  · refine forall₂_congr fun e he => ?_
    have := hadjacent e he
    rw [hretained _ (by omega)]

theorem peakBins_congr (p : Nat) (h : ∀ j ≤ p + 45, r j = r' j) :
    peakBins r p = peakBins r' p :=
  List.filter_congr fun b _ => decide_eq_decide.mpr (isPeak_congr p b h)

theorem examined_le {n n' : Nat} (h : n ≤ n') : ∃ later, examined n' = examined n ++ later ∧
    ∀ p ∈ later, n < p + 46 := by
  refine ⟨(List.range (n' - 45 - (n - 45))).map (n - 45 + ·), ?_, ?_⟩
  · rw [examined, examined, ← List.range_add]
    congr 1
    omega
  · intro p hp
    obtain ⟨k, -, rfl⟩ := List.mem_map.mp hp
    omega

/-- A run that goes on puts what it has in a band first. -/
theorem bandPeaks_extend (o : Overflow) (n n' : Nat) (hle : n ≤ n') (hn' : n' < 2 ^ 32)
    (h : ∀ j < n, r j = r' j) (band : FrequencyBand) :
    ∃ later, bandPeaks o r' n' band = bandPeaks o r n band ++ later ∧
      ∀ peak ∈ later, n < peak.fftPassNumber.toNat + 46 := by
  obtain ⟨rest, hrest, hlater⟩ := examined_le hle
  have hbefore : ∀ p ∈ examined n, landmarksIn o r' band p = landmarksIn o r band p := by
    intro p hp
    rw [mem_examined] at hp
    rw [landmarksIn, landmarksIn, peakBins_congr p fun j hj => h j (by omega), h p (by omega)]
  refine ⟨rest.flatMap (landmarksIn o r' band), ?_, fun peak hpeak => ?_⟩
  · rw [bandPeaks, bandPeaks, hrest, List.flatMap_append, List.flatMap_congr hbefore]
  · obtain ⟨p, hp, hmem⟩ := List.mem_flatMap.mp hpeak
    have hexamined : p ∈ examined n' := hrest ▸ List.mem_append_right _ hp
    rw [mem_examined] at hexamined
    rw [landmarksIn_fftPassNumber (by omega) hmem]
    exact hlater p hp

/-- A run that goes on without a panic had none before. -/
theorem record_extend (o : Overflow) (n n' : Nat) (hle : n ≤ n') (h : ∀ j < n, r j = r' j)
    {bands' : Bands} (hrecord : record o r' n' = some bands') :
    ∃ bands, record o r n = some bands := by
  rw [← Option.ne_none_iff_exists', Ne, record_eq_none_iff]
  rintro ⟨p, hp, b, hb, hnone⟩
  have hnone' : record o r' n' = none := by
    rw [record_eq_none_iff]
    rw [mem_examined] at hp
    refine ⟨p, (mem_examined n' p).mpr (by omega), b, ?_, ?_⟩
    · rwa [← peakBins_congr p fun j hj => h j (by omega)]
    · rwa [← h p (by omega)]
  rw [hrecord] at hnone'
  cases hnone'

theorem sampleAt_append (s t : List Int16) (q : Int) (hq : q < s.length) :
    sampleAt (s ++ t) q = sampleAt s q := by
  rw [sampleAt, sampleAt]
  split
  · rw [List.getD_append _ _ _ _ (by omega)]
  · rfl

theorem spectrumAt_append (fft : Vector α 2048 → Vector (α × α) 1025) (s t : List Int16) (k : Nat)
    (hk : k < s.length / 128) : spectrumAt fft s k = spectrumAt fft (s ++ t) k := by
  have hsamples : samplesOf s k = samplesOf (s ++ t) k := by
    funext i
    have hi := i.isLt
    rw [samplesOf, samplesOf, sampleAt_append s t _ (by omega)]
  rw [spectrumAt, spectrumAt, hsamples]

end After

/-- Where a buffer goes on, the landmarks of its first part stand first in every band. -/
theorem peaksOf_longer (o : Overflow) (fft : Vector α 2048 → Vector (α × α) 1025)
    (s t : List Int16) (hlength : (s ++ t).length / 128 < 2 ^ 32) {longer : DecodedSignature}
    (hlonger : makeSignatureFromBuffer o fft (s ++ t) = some longer) (band : FrequencyBand) :
    ∃ later, peaksOf longer band =
        bandPeaks o (fun p => spectrumAt fft s p) (s.length / 128) band ++ later ∧
      ∀ peak ∈ later, s.length / 128 < peak.fftPassNumber.toNat + 46 := by
  have hle : s.length / 128 ≤ (s ++ t).length / 128 := by
    rw [List.length_append]
    omega
  rw [makeSignatureFromBuffer_eq o fft _ hlength, Option.map_eq_some_iff] at hlonger
  obtain ⟨bands, hrecord, rfl⟩ := hlonger
  rw [peaksOf_setBands hrecord]
  exact bandPeaks_extend o _ _ hle hlength (fun j hj => spectrumAt_append fft s t j hj) band

/-- A buffer that goes on keeps every landmark it has, first in its band and as it is, and has
no panic it had not. What is added lies in passes that were not examined before. -/
theorem landmarks_extend (o : Overflow) (fft : Vector α 2048 → Vector (α × α) 1025)
    (s t : List Int16) (hlength : (s ++ t).length / 128 < 2 ^ 32) (longer : DecodedSignature)
    (hlonger : makeSignatureFromBuffer o fft (s ++ t) = some longer) :
    ∃ shorter, makeSignatureFromBuffer o fft s = some shorter ∧
      ∀ band, ∃ later, peaksOf longer band = peaksOf shorter band ++ later ∧
        ∀ peak ∈ later, s.length / 128 < peak.fftPassNumber.toNat + 46 := by
  have hle : s.length / 128 ≤ (s ++ t).length / 128 := by
    rw [List.length_append]
    omega
  have hrecords := hlonger
  rw [makeSignatureFromBuffer_eq o fft _ hlength, Option.map_eq_some_iff] at hrecords
  obtain ⟨bands', hrecord', -⟩ := hrecords
  obtain ⟨bands, hrecord⟩ :=
    record_extend o _ _ hle (fun j hj => spectrumAt_append fft s t j hj) hrecord'
  refine ⟨setBands ⟨sampleRateHz, UInt32.ofNat s.length, ∅⟩ bands, ?_, fun band => ?_⟩
  · rw [makeSignatureFromBuffer_eq o fft s (by omega), hrecord, Option.map_some]
  · rw [peaksOf_setBands hrecord]
    exact peaksOf_longer o fft s t hlength hlonger band

/-- A click and what may come after it. -/
theorem click_extend : ∃ shorter longer,
    makeSignatureFromBuffer .panics detector (click 0) = some shorter ∧
      makeSignatureFromBuffer .panics detector (click 0 ++ click 1) = some longer ∧
      ∀ band, ∃ later, peaksOf longer band = peaksOf shorter band ++ later := by
  have hlength : (click 0 ++ click 1).length = 128 * 93 := by
    rw [List.length_append, length_click, length_click]
  obtain ⟨longer, hlonger, -⟩ :=
    SignatureSize.signature_encodable .panics detector (click 0 ++ click 1) (by omega)
  obtain ⟨shorter, hshorter, hbands⟩ :=
    landmarks_extend .panics detector (click 0) (click 1) (by omega) longer hlonger
  refine ⟨shorter, longer, hshorter, hlonger, fun band => ?_⟩
  obtain ⟨later, hlater, -⟩ := hbands band
  exact ⟨later, hlater⟩

section Before

def later (m : Nat) (peak : FrequencyPeak) : FrequencyPeak :=
  { peak with fftPassNumber := peak.fftPassNumber + UInt32.ofNat m }

theorem landmark_later (o : Overflow) (p m : Nat) (hp : p + m + 46 < 2 ^ 32)
    (spectrum : Spectrum α) (b : Nat) :
    landmark o (UInt32.ofNat (p + m + 46)) spectrum b =
      (landmark o (UInt32.ofNat (p + 46)) spectrum b).map (later m) := by
  have hsub := subU32_fits o (UInt32.ofNat (p + m + 46)) 46 (le_toNat_passes hp)
  have hsub' := subU32_fits o (UInt32.ofNat (p + 46)) 46 (le_toNat_passes (by omega))
  have hnumber : UInt32.ofNat (p + m + 46) - 46 = UInt32.ofNat (p + 46) - 46 + UInt32.ofNat m := by
    rw [show p + m + 46 = p + 46 + m by omega, UInt32.ofNat_add]
    grind
  simp only [landmark, hsub, hsub', hnumber, Option.bind_eq_bind, Option.bind_some,
    Option.map_bind, Option.pure_def, Option.map_some, Function.comp_def, later]

theorem landmarkIn_later (o : Overflow) (p m : Nat) (hp : p + m + 46 < 2 ^ 32)
    (spectrum : Spectrum α) (band : FrequencyBand) (b : Nat) :
    landmarkIn o (UInt32.ofNat (p + m + 46)) spectrum band b =
      (landmarkIn o (UInt32.ofNat (p + 46)) spectrum band b).map (later m) := by
  rw [landmarkIn, landmarkIn, landmark_later o p m hp]
  cases landmark o (UInt32.ofNat (p + 46)) spectrum b with
  | none => rfl
  | some peak =>
    rw [Option.map_some, Option.filter_some, Option.filter_some]
    by_cases hin : InBand band (frequencyOf peak)
    · have hlater : InBand band (frequencyOf (later m peak)) := hin
      simp [hin, hlater]
    · have hlater : ¬InBand band (frequencyOf (later m peak)) := hin
      simp [hin, hlater]

variable {r r' : Int → Spectrum α} {m : Nat}

/-- The run `r'` is the run `r` after `m` passes of silence. -/
structure Delayed (r r' : Int → Spectrum α) (m : Nat) : Prop where
  shifted : ∀ j, r' (j + m) = r j
  quiet : ∀ j < 0, Quiet (r j)

theorem Delayed.quiet_before (h : Delayed r r' m) (j : Int) (hj : j < m) : Quiet (r' j) := by
  have hshifted := h.shifted (j - m)
  rw [sub_add_cancel] at hshifted
  rw [hshifted]
  exact h.quiet _ (by omega)

theorem Delayed.peakBins_later (h : Delayed r r' m) (p : Nat) :
    peakBins (fun k => r' k) (p + m) = peakBins (fun k => r k) p := by
  refine List.filter_congr fun b _ => decide_eq_decide.mpr ?_
  rw [isPeak_iff_around h.quiet, isPeak_iff_around fun j hj => h.quiet_before j (by omega)]
  refine isPeakAround_congr _ _ b fun j _ _ => ?_
  rw [← h.shifted (p + j)]
  congr 1
  push_cast
  ring

/-- Silence has no peak. -/
theorem Delayed.peakBins_before (h : Delayed r r' m) (p : Nat) (hp : p < m) :
    peakBins (fun k => r' k) p = [] := by
  rw [peakBins, List.filter_eq_nil_iff]
  intro b _ hpeak
  obtain ⟨hlarge, -⟩ := of_decide_eq_true hpeak
  have hfloor := h.quiet_before p (by omega) b
  exact absurd (hlarge.trans hfloor) (not_le_of_gt F32.floor_lt_peak)

theorem Delayed.landmarksIn_later (h : Delayed r r' m) (o : Overflow) (band : FrequencyBand)
    (p : Nat) (hp : p + m + 46 < 2 ^ 32) :
    landmarksIn o (fun k => r' k) band (p + m) =
      (landmarksIn o (fun k => r k) band p).map (later m) := by
  have hown : r' ((p + m : Nat) : Int) = r p := by
    rw [← h.shifted p]
    congr 1
  rw [landmarksIn, landmarksIn, h.peakBins_later, hown, List.map_filterMap]
  exact List.filterMap_congr fun b _ => landmarkIn_later o p m hp (r p) band b

theorem examined_later (n m : Nat) : ∃ silent, examined (n + m) =
    silent ++ (examined n).map (· + m) ∧ ∀ p ∈ silent, p < m := by
  by_cases hn : 45 ≤ n
  · refine ⟨List.range m, ?_, fun p hp => List.mem_range.mp hp⟩
    rw [examined, examined, show n + m - 45 = m + (n - 45) by omega, List.range_add]
    simp only [Nat.add_comm]
  · refine ⟨examined (n + m), ?_, fun p hp => ?_⟩
    · rw [examined, examined, show n - 45 = 0 by omega, List.range_zero, List.map_nil,
        List.append_nil]
    · rw [mem_examined] at hp
      omega

theorem Delayed.bandPeaks_later (h : Delayed r r' m) (o : Overflow) (n : Nat)
    (hn : n + m < 2 ^ 32) (band : FrequencyBand) :
    bandPeaks o (fun k => r' k) (n + m) band =
      (bandPeaks o (fun k => r k) n band).map (later m) := by
  obtain ⟨silent, hexamined, hsilent⟩ := examined_later n m
  have hnothing : silent.flatMap (landmarksIn o (fun k => r' k) band) = [] := by
    rw [List.flatMap_eq_nil_iff]
    intro p hp
    rw [landmarksIn, h.peakBins_before p (hsilent p hp), List.filterMap_nil]
  rw [bandPeaks, bandPeaks, hexamined, List.flatMap_append, hnothing, List.nil_append,
    List.flatMap_map, List.map_flatMap]
  refine List.flatMap_congr fun p hp => ?_
  rw [mem_examined] at hp
  exact h.landmarksIn_later o band p (by omega)

theorem Delayed.record_none_iff (h : Delayed r r' m) (o : Overflow) (n : Nat)
    (hn : n + m < 2 ^ 32) :
    record o (fun k => r' k) (n + m) = none ↔ record o (fun k => r k) n = none := by
  have hlandmark : ∀ p b, p + m + 46 < 2 ^ 32 →
      (landmark o (UInt32.ofNat (p + m + 46)) (r' ((p + m : Nat) : Int)) b = none ↔
        landmark o (UInt32.ofNat (p + 46)) (r p) b = none) := by
    intro p b hp
    have hown : r' ((p + m : Nat) : Int) = r p := by
      rw [← h.shifted p]
      congr 1
    rw [hown, landmark_later o p m hp, Option.map_eq_none_iff]
  rw [record_eq_none_iff, record_eq_none_iff]
  constructor
  · rintro ⟨p, hp, b, hb, hnone⟩
    rw [mem_examined] at hp
    by_cases hbefore : p < m
    · rw [h.peakBins_before p hbefore] at hb
      cases hb
    · obtain ⟨q, rfl⟩ := Nat.exists_eq_add_of_le' (Nat.le_of_not_lt hbefore)
      rw [h.peakBins_later] at hb
      exact ⟨q, (mem_examined n q).mpr (by omega), b, hb, (hlandmark q b (by omega)).mp hnone⟩
  · rintro ⟨p, hp, b, hb, hnone⟩
    rw [mem_examined] at hp
    rw [← h.peakBins_later] at hb
    exact ⟨p + m, (mem_examined _ _).mpr (by omega), b, hb,
      (hlandmark p b (by omega)).mpr hnone⟩

theorem sampleAt_silence (m : Nat) (s : List Int16) (q : Int) :
    sampleAt (List.replicate m 0 ++ s) (q + m) = sampleAt s q := by
  rw [sampleAt, sampleAt]
  by_cases hq : 0 ≤ q
  · rw [if_pos hq, if_pos (by omega), List.getD_append_right _ _ _ _ (by simp; omega),
      List.length_replicate]
    congr 1
    omega
  · rw [if_neg hq]
    split
    · rw [List.getD_append _ _ _ _ (by simp; omega), List.getD_replicate]
      omega
    · rfl

/-- Chunks of silence before a buffer delay its spectra, and what comes before them is quiet. -/
theorem delayed_silence {fft : Vector α 2048 → Vector (α × α) 1025} (hfft : SilenceToZero fft)
    (m : Nat) (s : List Int16) :
    Delayed (spectrumAt fft s) (spectrumAt fft (List.replicate (128 * m) 0 ++ s)) m where
  shifted j := by
    have hsamples : samplesOf (List.replicate (128 * m) 0 ++ s) (j + m) = samplesOf s j := by
      funext i
      rw [samplesOf, samplesOf, ← sampleAt_silence (128 * m) s]
      congr 1
      push_cast
      ring
    rw [spectrumAt, spectrumAt, hsamples]
  quiet := spectrumAt_quiet hfft s

end Before

/-- Chunks of silence before a buffer put every landmark as many passes later and change
nothing else: not its band, its place in it, its magnitude nor its bin, nor whether the
generator panics. -/
theorem landmarks_delayed (o : Overflow) (fft : Vector α 2048 → Vector (α × α) 1025)
    (hfft : SilenceToZero fft) (m : Nat) (s : List Int16) (hlength : s.length / 128 + m < 2 ^ 32) :
    (makeSignatureFromBuffer o fft (List.replicate (128 * m) 0 ++ s)).map peaksOf =
      (makeSignatureFromBuffer o fft s).map fun signature band =>
        (peaksOf signature band).map (later m) := by
  have hdelayed := delayed_silence hfft m s
  have hpasses : (List.replicate (128 * m) 0 ++ s).length / 128 = s.length / 128 + m := by
    rw [List.length_append, List.length_replicate]
    omega
  have hnone := hdelayed.record_none_iff o (s.length / 128) hlength
  rw [makeSignatureFromBuffer_eq o fft _ (hpasses ▸ hlength), hpasses,
    makeSignatureFromBuffer_eq o fft s (by omega)]
  cases hrecord : record o (fun p => spectrumAt fft s p) (s.length / 128) with
  | none =>
    rw [hnone.mpr hrecord]
    rfl
  | some bands =>
    obtain ⟨bands', hrecord'⟩ := Option.ne_none_iff_exists'.mp fun h => by
      rw [hnone.mp h] at hrecord
      cases hrecord
    rw [hrecord', Option.map_some, Option.map_some, Option.map_some, Option.map_some]
    congr 1
    funext band
    rw [peaksOf_setBands hrecord', peaksOf_setBands hrecord]
    exact hdelayed.bandPeaks_later o _ hlength band

theorem click_delayed :
    (makeSignatureFromBuffer .panics detector (List.replicate (128 * 3) 0 ++ click 0)).map peaksOf =
      (makeSignatureFromBuffer .panics detector (click 0)).map fun signature band =>
        (peaksOf signature band).map (later 3) :=
  landmarks_delayed .panics detector detector_silenceToZero 3 (click 0) (by
    rw [chunks_click]
    norm_num)

end LongerAudio
