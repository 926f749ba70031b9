import Mathlib
import ShazamioCore.Acceptance

/-!
# The size of a signature

The peaks of a pass lie eleven bins apart, so a pass has 92 of them at most, and a band can
jump 255 passes ahead no more often than the run has room for. A signature is then no longer
than 461 bytes for each pass, and audio of up to 2^30 samples fits every length field.
-/
namespace SignatureSize

open MachineInt SignatureFormat SignatureLayout SignatureFraming SignatureReader Algorithm
  PeakDetection GeneratorRun StreamingPeaks SampleRing Acceptance

section Spaced

/-- Numbers at least `d` apart within a range leave room for no more than it holds. -/
theorem length_spaced (d hi : Nat) (l : List Nat) (lo : Nat)
    (hspaced : l.Pairwise fun x y => x + d ≤ y) (hlo : ∀ x ∈ l, lo ≤ x) (hhi : ∀ x ∈ l, x ≤ hi) :
    d * l.length ≤ hi - lo + d := by
  induction l generalizing lo with
  | nil => simp
  | cons x l ih =>
    obtain ⟨hx, hl⟩ := List.pairwise_cons.mp hspaced
    have hxlo := hlo x List.mem_cons_self
    have hxhi := hhi x List.mem_cons_self
    rw [List.length_cons, Nat.mul_succ]
    cases l with
    | nil =>
      rw [List.length_nil]
      omega
    | cons y l =>
      have hy := hx y List.mem_cons_self
      have hyhi := hhi y (List.mem_cons_of_mem x List.mem_cons_self)
      have hrest := ih (x + d) hl hx fun z hz => hhi z (List.mem_cons_of_mem x hz)
      omega

/-- Selections that never take the same element take no more together than there are. -/
theorem sum_filterMap_length_le {β γ ι : Type} (f : ι → β → Option γ) (l : List β)
    (indices : List ι) (h : ∀ b ∈ l, (indices.map fun i => (f i b).toList.length).sum ≤ 1) :
    (indices.map fun i => (l.filterMap (f i)).length).sum ≤ l.length := by
  induction l with
  | nil => simp
  | cons b l ih =>
    obtain ⟨hb, hl⟩ := List.forall_mem_cons.mp h
    have hsplit : (indices.map fun i => ((b :: l).filterMap (f i)).length).sum =
        (indices.map fun i => (f i b).toList.length).sum +
          (indices.map fun i => (l.filterMap (f i)).length).sum := by
      rw [← List.sum_map_add]
      congr 1
      refine List.map_congr_left fun i _ => ?_
      rw [List.filterMap_cons]
      cases f i b with
      | none => simp
      | some c =>
        simp only [Option.toList_some, List.length_cons, List.length_nil]
        omega
    have hrest := ih hl
    rw [hsplit, List.length_cons]
    omega

end Spaced

section Count

variable {α : Type} [LinearOrder α] [F32 α]

theorem length_peakBins_le (r : Nat → Spectrum α) (p : Nat) : (peakBins r p).length ≤ 92 := by
  have hspaced : (peakBins r p).Pairwise fun b b' => b + 11 ≤ b' := by
    have hascending : (peakBins r p).Pairwise (· < ·) :=
      List.Pairwise.filter _ List.pairwise_lt_range'
    exact hascending.imp_of_mem fun hb hb' hlt => peakBins_apart hb hb' hlt
  have hrange : ∀ b ∈ peakBins r p, 10 ≤ b ∧ b ≤ 1014 := fun b hb => ((mem_peakBins r p b).mp hb).1
  have hlength := length_spaced 11 1014 (peakBins r p) 10 hspaced (fun b hb => (hrange b hb).1)
    fun b hb => (hrange b hb).2
  omega

/-- A landmark lies in one band at most. -/
theorem landmarkIn_once (o : Overflow) (num : UInt32) (spectrum : Spectrum α) (b : Nat) :
    (Locality.allBands.map fun band =>
      (landmarkIn o num spectrum band b).toList.length).sum ≤ 1 := by
  simp only [landmarkIn]
  cases landmark o num spectrum b with
  | none => simp
  | some peak =>
    simp only [Option.filter_some, ← frequencyBand_eq_some_iff]
    cases frequencyBand (frequencyOf peak) with
    | none => simp [Locality.allBands]
    | some band => cases band <;> simp [Locality.allBands]

theorem sum_landmarksIn_le (o : Overflow) (r : Nat → Spectrum α) (p : Nat) :
    (Locality.allBands.map fun band => (landmarksIn o r band p).length).sum ≤ 92 :=
  (sum_filterMap_length_le (landmarkIn o (UInt32.ofNat (p + 46)) (r p)) (peakBins r p)
    Locality.allBands fun b _ => landmarkIn_once o _ _ b).trans (length_peakBins_le r p)

/-- A run of `n` passes holds 92 landmarks for each one searched, in all bands together. -/
theorem sum_bandPeaks_le (o : Overflow) (r : Nat → Spectrum α) (n : Nat) :
    (Locality.allBands.map fun band => (bandPeaks o r n band).length).sum ≤ 92 * (n - 45) := by
  simp only [bandPeaks, examined]
  induction n - 45 with
  | zero => simp [Locality.allBands]
  | succ k ih =>
    have hpass := sum_landmarksIn_le o r k
    simp only [List.range_succ, List.flatMap_append, List.flatMap_singleton, List.length_append,
      List.sum_map_add] at ih hpass ⊢
    omega

end Count

section Bytes

/-- Every escape stands for 255 passes at least. -/
theorem escapes_le (pass last : UInt32) (peaks : List FrequencyPeak) (h : Ascending pass peaks)
    (hlast : ∀ peak ∈ peaks, peak.fftPassNumber ≤ last) :
    255 * escapes pass peaks ≤ last.toNat - pass.toNat := by
  induction peaks generalizing pass with
  | nil => simp [escapes]
  | cons peak peaks ih =>
    obtain ⟨hstep, hrest⟩ := h
    obtain ⟨hpeak, hpeaks⟩ := List.forall_mem_cons.mp hlast
    have hlater := ih peak.fftPassNumber hrest hpeaks
    rw [UInt32.le_iff_toNat_le] at hstep hpeak
    rw [escapes]
    split
    · rename_i hescaped
      rw [escaped] at hescaped
      omega
    · omega

theorem bandLength_le (band : FrequencyBand) (peaks : List FrequencyPeak) (n : Nat)
    (h : Ascending 0 peaks) (hlast : ∀ peak ∈ peaks, peak.fftPassNumber.toNat ≤ n)
    (hn : n < 2 ^ 32) :
    bandLength ⟨band, peaks⟩ ≤ 11 + 5 * peaks.length + n / 51 := by
  have hlength : (UInt32.ofNat n).toNat = n := UInt32.toNat_ofNat_of_lt' hn
  have hescapes := escapes_le 0 (UInt32.ofNat n) peaks h fun peak hpeak => by
    rw [UInt32.le_iff_toNat_le, hlength]
    exact hlast peak hpeak
  rw [hlength] at hescapes
  have hzero : (0 : UInt32).toNat = 0 := rfl
  simp only [bandLength]
  omega

/-- Over entries with no band twice, a sum of lengths is one over some of the four bands. -/
theorem sum_entries_le (bands : AList fun _ : FrequencyBand => List FrequencyPeak)
    (f : FrequencyBand → Nat) :
    (bands.entries.map fun entry => f entry.1).sum ≤ (Locality.allBands.map f).sum := by
  have hkeys : bands.keys.Nodup := bands.nodupKeys
  have hsubset : bands.keys ⊆ Locality.allBands := by
    intro band _
    cases band <;> decide
  obtain ⟨l, hperm, hsub⟩ := List.subperm_of_subset hkeys hsubset
  have hsum : (bands.entries.map fun entry => f entry.1).sum = (bands.keys.map f).sum := by
    simp [AList.keys, List.keys, Function.comp_def]
  rw [hsum, ← (hperm.map f).sum_eq]
  exact (hsub.map f).sum_le_sum (by simp)

end Bytes

section Run

variable {α : Type} [LinearOrder α] [F32 α]

/-- What a run records is, band by band, the landmarks of its passes. -/
theorem entry_eq {o : Overflow} {r : Nat → Spectrum α} {n : Nat} {bands : Bands}
    (h : record o r n = some bands) {entry : BandEntry} (hentry : entry ∈ bands.entries) :
    entry.2 = bandPeaks o r n entry.1 := by
  have hlookup := lookup_record h entry.1
  rw [AList.mem_lookup_iff.mpr hentry] at hlookup
  split at hlookup
  · cases hlookup
  · exact Option.some.inj hlookup

theorem bandPeaks_number {o : Overflow} {r : Nat → Spectrum α} {n : Nat} (hn : n < 2 ^ 32)
    {band : FrequencyBand} {peak : FrequencyPeak} (h : peak ∈ bandPeaks o r n band) :
    peak.fftPassNumber.toNat + 46 ≤ n := by
  rw [bandPeaks, List.mem_flatMap] at h
  obtain ⟨p, hp, hpeak⟩ := h
  rw [mem_examined] at hp
  rw [Locality.landmarksIn_fftPassNumber (by omega) hpeak]
  exact hp

theorem bandPeaks_ascending (o : Overflow) (r : Nat → Spectrum α) (n : Nat) (hn : n < 2 ^ 32)
    (band : FrequencyBand) : Ascending 0 (bandPeaks o r n band) := by
  rw [ascending_zero_iff, List.pairwise_map, bandPeaks, List.pairwise_flatMap]
  have hnumber : ∀ p ∈ examined n, ∀ peak ∈ landmarksIn o r band p,
      peak.fftPassNumber.toNat = p := by
    intro p hp peak hpeak
    rw [mem_examined] at hp
    exact Locality.landmarksIn_fftPassNumber (by omega) hpeak
  constructor
  · intro p hp
    refine List.pairwise_of_forall_mem_list fun x hx y hy => ?_
    rw [UInt32.le_iff_toNat_le, hnumber p hp x hx, hnumber p hp y hy]
  · have hrange : (examined n).Pairwise (· < ·) := List.pairwise_lt_range
    refine hrange.imp_of_mem fun {p q} hp hq hlt x hx y hy => ?_
    rw [UInt32.le_iff_toNat_le, hnumber p hp x hx, hnumber q hq y hy]
    exact hlt.le

/-- However loud a run is, its signature takes 461 bytes a pass at most. -/
theorem encodedLength_record_le {o : Overflow} {r : Nat → Spectrum α} {n : Nat} {bands : Bands}
    (hn : n < 2 ^ 32) (h : record o r n = some bands) (rate number : UInt32) :
    encodedLength ⟨rate, number, bands⟩ ≤ 100 + 461 * n := by
  have hentries : (bands.entries.map bandLength).sum ≤
      (bands.entries.map fun entry =>
        11 + 5 * (bandPeaks o r n entry.1).length + n / 51).sum := by
    refine List.sum_le_sum fun entry hentry => ?_
    obtain ⟨band, peaks⟩ := entry
    obtain rfl : peaks = bandPeaks o r n band := entry_eq h hentry
    refine bandLength_le band _ n (bandPeaks_ascending o r n hn band) (fun peak hpeak => ?_) hn
    have hnumber := bandPeaks_number hn hpeak
    omega
  have hbands := sum_entries_le bands fun band => 11 + 5 * (bandPeaks o r n band).length + n / 51
  have hcount := sum_bandPeaks_le o r n
  simp only [Locality.allBands, List.map_cons, List.map_nil, List.sum_cons, List.sum_nil]
    at hbands hcount
  change 56 + (bands.entries.map bandLength).sum ≤ _
  omega

end Run

/-- Audio of up to 2^30 samples is fingerprinted, and the format can hold its signature. -/
theorem signature_encodable (o : Overflow) (fft : Vector ℝ 2048 → Vector (ℝ × ℝ) 1025)
    (s : List Int16) (hs : s.length ≤ 2 ^ 30) :
    ∃ signature, makeSignatureFromBuffer o fft s = some signature ∧ Encodable signature ∧
      encodedLength signature ≤ 100 + 461 * (s.length / 128) := by
  have hpasses : s.length / 128 < 2 ^ 32 := by omega
  have hpos : ∀ p : Nat, ∀ c < 1025, 0 < value (spectrumAt fft s p) c :=
    fun p c hc => value_spectrumAt_pos fft s p c hc
  obtain ⟨bands, hbands⟩ := record_runs hpos o (s.length / 128) hpasses
  have hnumber : (UInt32.ofNat s.length).toNat = s.length :=
    UInt32.toNat_ofNat_of_lt' (show s.length < 2 ^ 32 by omega)
  have hlength := encodedLength_record_le hpasses hbands sampleRateHz (UInt32.ofNat s.length)
  refine ⟨⟨sampleRateHz, UInt32.ofNat s.length, bands⟩, ?_, ?_, hlength⟩
  · rw [makeSignatureFromBuffer_eq o fft s hpasses, hbands]
    rfl
  · apply encodable
    · rfl
    · rw [hnumber]
      omega
    · intro entry hentry
      rw [entry_eq hbands hentry]
      exact bandPeaks_pairwise hpos o _ hpasses _
    · omega

/-- Audio of up to 2^30 samples, whatever the transform makes of it, is fingerprinted and
encoded without a panic, into 461 bytes for each pass of 128 samples and 100 besides. -/
theorem signature_fits (o : Overflow) (fft : Vector ℝ 2048 → Vector (ℝ × ℝ) 1025)
    (crc32 : List UInt8 → UInt32) (s : List Int16) (hs : s.length ≤ 2 ^ 30) :
    ∃ signature bytes, makeSignatureFromBuffer o fft s = some signature ∧
      encodeToBinary o crc32 signature = some bytes ∧
      bytes.length ≤ 100 + 461 * (s.length / 128) := by
  obtain ⟨signature, hmake, hencodable, hlength⟩ := signature_encodable o fft s hs
  obtain ⟨rateId, bodySize, -, hbytes⟩ := encodeToBinary_accepts o crc32 _ hencodable
  refine ⟨signature, _, hmake, hbytes, ?_⟩
  rw [image_length, body_length _ (Or.inr hencodable.length)]
  exact hlength

/-- The click after silence takes at most the bytes its 46 passes allow. -/
theorem signature_fits_click : ∃ signature bytes,
    makeSignatureFromBuffer .panics Locality.detector (Locality.click 0) = some signature ∧
      encodeToBinary .panics crc32Ieee signature = some bytes ∧ bytes.length ≤ 21306 := by
  obtain ⟨signature, bytes, hmake, hbytes, hlength⟩ := signature_fits .panics Locality.detector
    crc32Ieee (Locality.click 0) (by rw [Locality.length_click]; norm_num)
  rw [Locality.length_click] at hlength
  exact ⟨signature, bytes, hmake, hbytes, hlength⟩

end SignatureSize
