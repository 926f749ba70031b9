import Mathlib
import ShazamioCore.Locality
import ShazamioCore.SignatureReader

/-!
# What the generator makes the encoder takes

Two peaks of a pass lie at least eleven bins apart, and a correction moves a bin by half
at most, so each band's landmarks come in strictly ascending order of pass and corrected
bin. The encoder's assertion and subtractions need no more than that.
-/
namespace Acceptance

open MachineInt SignatureFormat SignatureLayout SignatureFraming SignatureReader Algorithm
  PeakDetection GeneratorRun StreamingPeaks SampleRing

def Earlier (x y : FrequencyPeak) : Prop :=
  x.fftPassNumber < y.fftPassNumber ∨
    x.fftPassNumber = y.fftPassNumber ∧ x.correctedPeakFrequencyBin < y.correctedPeakFrequencyBin

theorem Earlier.irrefl (x : FrequencyPeak) : ¬Earlier x x := by
  rintro (h | ⟨-, h⟩)
  · exact UInt32.lt_irrefl _ h
  · exact UInt16.lt_irrefl _ h

section Run

variable {r : Nat → Spectrum ℝ} (hpos : ∀ p, ∀ c < 1025, 0 < value (r p) c)

include hpos

/-- The landmark of a peak: nothing stops it, and its bin stays within half of its own. -/
theorem landmark_of_isPeak (o : Overflow) {p b : Nat} (hp : p + 46 < 2 ^ 32)
    (hb : b ∈ peakBins r p) :
    ∃ peak, landmark o (UInt32.ofNat (p + 46)) (r p) b = some peak ∧
      64 * b ≤ peak.correctedPeakFrequencyBin.toNat + 32 ∧
      peak.correctedPeakFrequencyBin.toNat ≤ 64 * b + 32 := by
  obtain ⟨⟨hlo, hhi⟩, hpeak⟩ := (mem_peakBins r p b).mp hb
  obtain ⟨magnitude, corrected, hcorrected, heq⟩ := Interpolation.landmark_eq o
    (UInt32.ofNat (p + 46)) (r p) b hlo hhi (hpos p _ (by omega)) (hpos p _ (by omega))
    (hpeak.value_lt _ (by omega) (by omega) (by omega) hlo).le
    (hpeak.value_lt _ (by omega) (by omega) (by omega) hlo).le
  rw [subU32_fits o _ _ (le_toNat_passes hp), Option.map_some] at heq
  exact ⟨_, heq, hcorrected⟩

/-- Of two peaks of a pass the lower one's landmark has the lower corrected bin. -/
theorem corrected_lt (o : Overflow) {p b b' : Nat} (hp : p + 46 < 2 ^ 32) (hb : b ∈ peakBins r p)
    (hb' : b' ∈ peakBins r p) (hlt : b < b') {peak peak' : FrequencyPeak}
    (hpeak : landmark o (UInt32.ofNat (p + 46)) (r p) b = some peak)
    (hpeak' : landmark o (UInt32.ofNat (p + 46)) (r p) b' = some peak') :
    peak.correctedPeakFrequencyBin < peak'.correctedPeakFrequencyBin := by
  have hapart := peakBins_apart hb hb' hlt
  obtain ⟨x, hx, -, hhi⟩ := landmark_of_isPeak hpos o hp hb
  obtain ⟨y, hy, hlo, -⟩ := landmark_of_isPeak hpos o hp hb'
  obtain rfl := Option.some.inj (hpeak.symm.trans hx)
  obtain rfl := Option.some.inj (hpeak'.symm.trans hy)
  rw [UInt16.lt_iff_toNat_lt]
  omega

omit hpos in
theorem peakBins_ascending (p : Nat) : (peakBins r p).Pairwise (· < ·) :=
  List.Pairwise.filter _ List.pairwise_lt_range'

theorem landmarksIn_pairwise (o : Overflow) (band : FrequencyBand) (p : Nat)
    (hp : p + 46 < 2 ^ 32) : (landmarksIn o r band p).Pairwise Earlier := by
  rw [landmarksIn, List.pairwise_filterMap]
  refine (peakBins_ascending p).imp_of_mem fun {b b'} hb hb' hlt peak hpeak peak' hpeak' => ?_
  have hx := Option.eq_some_of_filter_eq_some hpeak
  have hy := Option.eq_some_of_filter_eq_some hpeak'
  have hnumber : peak.fftPassNumber = peak'.fftPassNumber := by
    rw [← UInt32.toNat_inj, landmark_fftPassNumber hp hx, landmark_fftPassNumber hp hy]
  exact Or.inr ⟨hnumber, corrected_lt hpos o hp hb hb' hlt hx hy⟩

/-- A band's landmarks over a whole run ascend strictly. -/
theorem bandPeaks_pairwise (o : Overflow) (n : Nat) (hn : n < 2 ^ 32) (band : FrequencyBand) :
    (bandPeaks o r n band).Pairwise Earlier := by
  rw [bandPeaks, List.pairwise_flatMap]
  constructor
  · intro p hp
    rw [mem_examined] at hp
    exact landmarksIn_pairwise hpos o band p (by omega)
  · refine List.Pairwise.imp_of_mem (fun {p q} hp hq hlt x hx y hy => ?_) List.pairwise_lt_range
    change p ∈ examined n at hp
    change q ∈ examined n at hq
    rw [mem_examined] at hp hq
    left
    rw [UInt32.lt_iff_toNat_lt, Locality.landmarksIn_fftPassNumber (by omega) hx,
      Locality.landmarksIn_fftPassNumber (by omega) hy]
    exact hlt

omit hpos in
theorem bandPeaks_fftPassNumber (o : Overflow) (n : Nat) (hn : n < 2 ^ 32) (band : FrequencyBand)
    (peak : FrequencyPeak) (h : peak ∈ bandPeaks o r n band) :
    peak.fftPassNumber.toNat + 46 ≤ n := by
  rw [bandPeaks, List.mem_flatMap] at h
  obtain ⟨p, hp, hpeak⟩ := h
  rw [mem_examined] at hp
  rw [Locality.landmarksIn_fftPassNumber (by omega) hpeak]
  exact hp

theorem record_runs (o : Overflow) (n : Nat) (hn : n < 2 ^ 32) :
    ∃ bands, record o r n = some bands := by
  rw [← Option.ne_none_iff_exists', Ne, record_eq_none_iff]
  rintro ⟨p, hp, b, hb, hnone⟩
  rw [mem_examined] at hp
  obtain ⟨peak, hpeak, -⟩ := landmark_of_isPeak hpos o (by omega) hb
  rw [hpeak] at hnone
  cases hnone

end Run

theorem value_spectrumAt_pos (fft : Vector ℝ 2048 → Vector (ℝ × ℝ) 1025) (s : List Int16)
    (k : Int) (c : Nat) (hc : c < 1025) : 0 < value (spectrumAt fft s k) c := by
  rw [value_eq _ c hc, spectrumAt, realFftResults, Vector.getElem_map, lt_max_iff]
  right
  norm_num [F32.lit]

/-- In exact arithmetic both runs return, and equal audio around two passes is heard alike. -/
theorem same_audio_recorded (o : Overflow) (fft : Vector ℝ 2048 → Vector (ℝ × ℝ) 1025)
    (hfft : Locality.SilenceToZero fft) (A B : List Int16) (p p' : Nat)
    (hA : A.length / 128 < 2 ^ 32) (hB : B.length / 128 < 2 ^ 32)
    (hp : p + 46 ≤ A.length / 128) (hp' : p' + 46 ≤ B.length / 128)
    (haudio : ∀ i : Nat, i < 128 * 90 + 2048 →
      sampleAt A (128 * (p - 44) - 2048 + i) = sampleAt B (128 * (p' - 44) - 2048 + i)) :
    ∃ signatureA signatureB, makeSignatureFromBuffer o fft A = some signatureA ∧
      makeSignatureFromBuffer o fft B = some signatureB ∧
      Locality.recordedAs signatureA p = Locality.recordedAs signatureB p' := by
  have hmade : ∀ s : List Int16, s.length / 128 < 2 ^ 32 →
      ∃ signature, makeSignatureFromBuffer o fft s = some signature := by
    intro s hs
    obtain ⟨bands, hbands⟩ := record_runs (r := fun k => spectrumAt fft s k)
      (fun k c hc => value_spectrumAt_pos fft s k c hc) o (s.length / 128) hs
    rw [makeSignatureFromBuffer_eq o fft s hs, hbands]
    exact ⟨_, rfl⟩
  obtain ⟨signatureA, hsignatureA⟩ := hmade A hA
  obtain ⟨signatureB, hsignatureB⟩ := hmade B hB
  refine ⟨signatureA, signatureB, hsignatureA, hsignatureB, ?_⟩
  rw [Locality.recordedAs_eq hA hsignatureA p hp, Locality.recordedAs_eq hB hsignatureB p' hp']
  exact congrArg (Locality.allBands.flatMap ·) (funext fun band =>
    Locality.landmarksIn_local o fft hfft A B p p' (by omega) (by omega) haudio band)

theorem pairwise_fftPassNumber {peaks : List FrequencyPeak} (h : peaks.Pairwise Earlier) :
    (peaks.map FrequencyPeak.fftPassNumber).Pairwise (· ≤ ·) := by
  rw [List.pairwise_map]
  refine h.imp fun {x y} hxy => ?_
  rcases hxy with hlt | ⟨heq, -⟩
  · exact UInt32.le_of_lt hlt
  · exact heq ▸ UInt32.le_refl _

/-- A signature of 16 kHz audio with ascending bands goes through every write. -/
theorem appendAll_accepts (o : Overflow) (s : DecodedSignature)
    (hrate : s.sampleRateHz = sampleRateHz) (hnumber : s.numberSamples.toNat < 2 ^ 32 - 3840)
    (hentries : ∀ entry ∈ s.frequencyBandToSoundPeaks.entries, entry.2.Pairwise Earlier) :
    ∃ cursor, appendAll o s = some cursor := by
  have hpad : padSamples sampleRateHz = 3840 := padSamples_eq sampleRateHz (by decide)
  have hadd := addU32_fits o s.numberSamples (padSamples s.sampleRateHz) (by
    rw [hrate, hpad, show (3840 : UInt32).toNat = 3840 from rfl]
    omega)
  obtain ⟨rateId, hid, -⟩ := sampleRateId_shift s.sampleRateHz (by rw [hrate]; decide)
  refine ⟨_, (appendAll_eq_some o s _).mpr ⟨rateId, _, hid, hadd, fun entry hentry => ?_, rfl⟩⟩
  rw [ascending_zero_iff]
  exact pairwise_fftPassNumber (hentries entry ((mem_sortedEntries _ _).mp hentry))

theorem encodable (s : DecodedSignature) (hrate : s.sampleRateHz = sampleRateHz)
    (hnumber : s.numberSamples.toNat < 2 ^ 32 - 3840)
    (hentries : ∀ entry ∈ s.frequencyBandToSoundPeaks.entries, entry.2.Pairwise Earlier)
    (hlength : encodedLength s < 2 ^ 32) : Encodable s where
  rate := by
    rw [hrate]
    decide
  pad := by
    have hpad : sampleRateHz.toNat * 24 / 100 = 3840 := by decide
    rw [hrate, hpad]
    omega
  nondecreasing entry hentry := pairwise_fftPassNumber (hentries entry hentry)
  length := hlength

/-- Whatever the transform does to the windows of a buffer, its signature is made, each band
ascends strictly under numbers the buffer has passes for, and the encoder writes it all. -/
theorem signature_accepted (o : Overflow) (fft : Vector ℝ 2048 → Vector (ℝ × ℝ) 1025)
    (s : List Int16) (hs : s.length < 2 ^ 32 - 3840) :
    ∃ signature, makeSignatureFromBuffer o fft s = some signature ∧
      (∀ entry ∈ signature.frequencyBandToSoundPeaks.entries,
        entry.2.Pairwise Earlier ∧ entry.2.Nodup ∧
          ∀ peak ∈ entry.2, peak.fftPassNumber.toNat + 46 ≤ s.length / 128) ∧
      (∃ cursor, appendAll o signature = some cursor) ∧
      (encodedLength signature < 2 ^ 32 →
        ∀ crc32, ∃ bytes, encodeToBinary o crc32 signature = some bytes) := by
  have hpasses : s.length / 128 < 2 ^ 32 := by omega
  have hpos : ∀ p : Nat, ∀ c < 1025, 0 < value (spectrumAt fft s p) c :=
    fun p c hc => value_spectrumAt_pos fft s p c hc
  obtain ⟨bands, hbands⟩ := record_runs hpos o (s.length / 128) hpasses
  have hentries : ∀ entry ∈ bands.entries,
      entry.2 = bandPeaks o (fun p => spectrumAt fft s p) (s.length / 128) entry.1 := by
    intro entry hentry
    have hlookup := lookup_record hbands entry.1
    rw [AList.mem_lookup_iff.mpr hentry] at hlookup
    split at hlookup
    · cases hlookup
    · exact Option.some.inj hlookup
  have hpairwise : ∀ entry ∈ bands.entries, entry.2.Pairwise Earlier := by
    intro entry hentry
    rw [hentries entry hentry]
    exact bandPeaks_pairwise hpos o _ hpasses _
  have hlength : (UInt32.ofNat s.length).toNat = s.length :=
    UInt32.toNat_ofNat_of_lt' (show s.length < 2 ^ 32 by omega)
  refine ⟨setBands ⟨sampleRateHz, UInt32.ofNat s.length, ∅⟩ bands, ?_, ?_, ?_, ?_⟩
  · rw [makeSignatureFromBuffer_eq o fft s hpasses, hbands, Option.map_some]
  · intro entry hentry
    refine ⟨hpairwise entry hentry, ?_, fun peak hpeak => ?_⟩
    · refine (hpairwise entry hentry).imp ?_
      rintro x y hxy rfl
      exact Earlier.irrefl x hxy
    · rw [hentries entry hentry] at hpeak
      exact bandPeaks_fftPassNumber o _ hpasses _ peak hpeak
  · exact appendAll_accepts o _ rfl (hlength.trans_lt hs) hpairwise
  · intro hencoded crc32
    have haccepts := encodable _ rfl (hlength.trans_lt hs) hpairwise hencoded
    obtain ⟨_, _, -, hbytes⟩ := encodeToBinary_accepts o crc32 _ haccepts
    exact ⟨_, hbytes⟩

/-- A click and the audio after it, from the samples to the bytes. -/
theorem click_accepted : ∃ signature,
    makeSignatureFromBuffer .panics Locality.detector (Locality.click 0) = some signature ∧
      ∃ cursor, appendAll .panics signature = some cursor := by
  obtain ⟨signature, hmake, -, hcursor, -⟩ := signature_accepted .panics Locality.detector
    (Locality.click 0) (by rw [Locality.length_click]; norm_num)
  exact ⟨signature, hmake, hcursor⟩

end Acceptance
