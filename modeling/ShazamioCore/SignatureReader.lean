import Mathlib
import ShazamioCore.SignatureFraming

/-!
# A reader of the binary signature

The encoder has no decoder beside it. This one reads the rate and the sample count from
the header, walks the sections, and undoes the delta rule of each payload; it returns
what was encoded for every signature the format can hold, so two of them never share
their bytes.
-/
namespace SignatureReader

open ByteCursor MachineInt SignatureFormat SignatureLayout SignatureFraming

def sampleRateOfId (sampleRateId : UInt32) : Option UInt32 :=
  match sampleRateId.toNat with
  | 1 => some 8000
  | 2 => some 11025
  | 3 => some 16000
  | 4 => some 32000
  | 5 => some 44100
  | 6 => some 48000
  | _ => none

def bandOfMarker (marker : UInt32) : Option FrequencyBand :=
  match (marker - 0x60030040).toNat with
  | 0 => some ._250_520
  | 1 => some ._520_1450
  | 2 => some ._1450_3500
  | 3 => some ._3500_5500
  | _ => none

/-- The delta rule: `0xff` puts an absolute pass number in the place of the running one,
any other byte adds to it and two fields follow. Either way five bytes are taken. -/
def readPeaks : UInt32 → List UInt8 → Option (List FrequencyPeak)
  | _, [] => some []
  | fftPassNumber, delta :: b₀ :: b₁ :: b₂ :: b₃ :: rest =>
    if delta = 0xff then readPeaks (UInt32.ofNat (leValue [b₀, b₁, b₂, b₃])) rest
    else
      (readPeaks (fftPassNumber + delta.toUInt32) rest).map fun peaks =>
        ⟨fftPassNumber + delta.toUInt32, UInt16.ofNat (leValue [b₀, b₁]),
          UInt16.ofNat (leValue [b₂, b₃])⟩ :: peaks
  | _, _ => none

def readSection (sec : Section) : Option BandEntry := do
  let band ← bandOfMarker sec.marker
  let peaks ← readPeaks 0 sec.payload
  return ⟨band, peaks⟩

/-- The rate, the sample count and the bands of a signature, by ascending band. -/
def readSignature (encoded : List UInt8) : Option (UInt32 × UInt32 × List BandEntry) := do
  let shiftedSampleRateId ← readU32 encoded 28
  let sampleRateHz ← sampleRateOfId (shiftedSampleRateId >>> 27)
  let numberSamplesPlus ← readU32 encoded 40
  let walked ← walk encoded firstBandOffset
  let entries ← walked.1.mapM readSection
  return (sampleRateHz,
    numberSamplesPlus - UInt32.ofNat (sampleRateHz.toNat * 24 / 100), entries)

theorem le32_eq (x : UInt32) : ∃ b₀ b₁ b₂ b₃, le32 x = [b₀, b₁, b₂, b₃] :=
  ⟨_, _, _, _, rfl⟩

theorem le16_eq (x : UInt16) : ∃ b₀ b₁, le16 x = [b₀, b₁] := ⟨_, _, rfl⟩

/-- A delta byte with its two fields is read as one peak. -/
theorem readPeaks_delta (pass : UInt32) (delta : UInt8) (hdelta : delta ≠ 0xff)
    (magnitude bin : UInt16) (rest : List UInt8) :
    readPeaks pass (delta :: (le16 magnitude ++ (le16 bin ++ rest))) =
      (readPeaks (pass + delta.toUInt32) rest).map
        fun peaks => ⟨pass + delta.toUInt32, magnitude, bin⟩ :: peaks := by
  obtain ⟨m₀, m₁, hm⟩ := le16_eq magnitude
  obtain ⟨f₀, f₁, hf⟩ := le16_eq bin
  have hmv : UInt16.ofNat (leValue [m₀, m₁]) = magnitude := by
    rw [← hm, leValue_le16, UInt16.ofNat_toNat]
  have hfv : UInt16.ofNat (leValue [f₀, f₁]) = bin := by
    rw [← hf, leValue_le16, UInt16.ofNat_toNat]
  rw [hm, hf]
  simp only [List.cons_append, List.nil_append, readPeaks, if_neg hdelta, hmv, hfv]

/-- An escape only replaces the running pass number. -/
theorem readPeaks_escape (pass x : UInt32) (rest : List UInt8) :
    readPeaks pass (0xff :: (le32 x ++ rest)) = readPeaks x rest := by
  obtain ⟨b₀, b₁, b₂, b₃, hb⟩ := le32_eq x
  have hv : UInt32.ofNat (leValue [b₀, b₁, b₂, b₃]) = x := by
    rw [← hb, leValue_le32, UInt32.ofNat_toNat]
  rw [hb]
  simp only [List.cons_append, List.nil_append, readPeaks, if_true, hv]

/-- One encoded peak is read back whichever way its pass number was written. -/
theorem readPeaks_peakBytes (pass : UInt32) (peak : FrequencyPeak)
    (h : pass ≤ peak.fftPassNumber) (rest : List UInt8) :
    readPeaks pass (peakBytes pass peak ++ rest) =
      (readPeaks peak.fftPassNumber rest).map fun peaks => peak :: peaks := by
  have hnat : pass.toNat ≤ peak.fftPassNumber.toNat := UInt32.le_iff_toNat_le.mp h
  by_cases hesc : escaped pass peak
  · have hread := readPeaks_delta peak.fftPassNumber 0 (by decide) peak.peakMagnitude
      peak.correctedPeakFrequencyBin rest
    simp only [peakBytes, deltaBytes, if_pos hesc, List.cons_append, List.append_assoc,
      List.nil_append]
    rw [readPeaks_escape, hread]
    simp
  · have hgap : peak.fftPassNumber.toNat - pass.toNat < 255 := by
      rw [escaped] at hesc
      omega
    have hsub : (peak.fftPassNumber - pass).toNat = peak.fftPassNumber.toNat - pass.toNat :=
      toNat_sub_fits _ _ hnat
    have hbyte : ((peak.fftPassNumber - pass).toUInt8).toNat =
        peak.fftPassNumber.toNat - pass.toNat := by
      rw [UInt32.toNat_toUInt8, hsub]
      omega
    have hne : (peak.fftPassNumber - pass).toUInt8 ≠ 0xff := by
      intro he
      have hval := congrArg UInt8.toNat he
      rw [hbyte] at hval
      have h255 : (0xff : UInt8).toNat = 255 := rfl
      omega
    have hpass : pass + (peak.fftPassNumber - pass).toUInt8.toUInt32 = peak.fftPassNumber := by
      apply UInt32.toNat_inj.mp
      have hlt := peak.fftPassNumber.toNat_lt
      rw [UInt32.toNat_add, UInt8.toNat_toUInt32, hbyte]
      omega
    have hread := readPeaks_delta pass _ hne peak.peakMagnitude
      peak.correctedPeakFrequencyBin rest
    simp only [peakBytes, deltaBytes, if_neg hesc, List.cons_append, List.append_assoc,
      List.nil_append]
    rw [hread, hpass]

theorem readPeaks_payload (pass : UInt32) (peaks : List FrequencyPeak)
    (h : Ascending pass peaks) : readPeaks pass (payload pass peaks) = some peaks := by
  induction peaks generalizing pass with
  | nil => rfl
  | cons peak peaks ih =>
    rw [payload_cons, readPeaks_peakBytes pass peak h.1, ih peak.fftPassNumber h.2]
    rfl

theorem bandOfMarker_bandMarker (band : FrequencyBand) :
    bandOfMarker (bandMarker band) = some band := by
  cases band <;> decide

theorem readSection_sectionOf (entry : BandEntry) (h : Ascending 0 entry.2) :
    readSection (sectionOf entry) = some entry := by
  simp [readSection, sectionOf, bandOfMarker_bandMarker, readPeaks_payload 0 entry.2 h]

theorem readSections (entries : List BandEntry) (h : ∀ entry ∈ entries, Ascending 0 entry.2) :
    (entries.map sectionOf).mapM readSection = some entries := by
  induction entries with
  | nil => rfl
  | cons entry entries ih =>
    obtain ⟨hentry, hrest⟩ := List.forall_mem_cons.mp h
    simp [readSection_sectionOf entry hentry, ih hrest]

def supportedRates : List Nat := [8000, 11025, 16000, 32000, 44100, 48000]

structure Encodable (s : DecodedSignature) : Prop where
  rate : s.sampleRateHz.toNat ∈ supportedRates
  pad : s.numberSamples.toNat + s.sampleRateHz.toNat * 24 / 100 < 2 ^ 32
  nondecreasing : ∀ entry ∈ s.frequencyBandToSoundPeaks.entries,
    (entry.2.map FrequencyPeak.fftPassNumber).Pairwise (· ≤ ·)
  length : encodedLength s < 2 ^ 32

/-- The rounded product is the exact 240 ms at every supported rate. -/
theorem padSamples_eq (sampleRateHz : UInt32) (h : sampleRateHz.toNat ∈ supportedRates) :
    padSamples sampleRateHz = UInt32.ofNat (sampleRateHz.toNat * 24 / 100) := by
  simp only [supportedRates, List.mem_cons, List.not_mem_nil, or_false] at h
  rw [padSamples]
  rcases h with h | h | h | h | h | h <;> rw [h] <;> decide +kernel

theorem sampleRateId_shift (sampleRateHz : UInt32) (h : sampleRateHz.toNat ∈ supportedRates) :
    ∃ id, sampleRateId sampleRateHz = some id ∧
      sampleRateOfId ((id <<< 27) >>> 27) = some sampleRateHz := by
  have he : sampleRateHz = UInt32.ofNat sampleRateHz.toNat := UInt32.ofNat_toNat.symm
  simp only [supportedRates, List.mem_cons, List.not_mem_nil, or_false] at h
  rcases h with h | h | h | h | h | h <;>
    (rw [h] at he; subst he; exact ⟨_, rfl, rfl⟩)

/-- The encoder accepts every signature the format can hold. -/
theorem encodeToBinary_accepts (o : Overflow) (crc32 : List UInt8 → UInt32)
    (s : DecodedSignature) (h : Encodable s) :
    ∃ rateId bodySize, sampleRateId s.sampleRateHz = some rateId ∧
      encodeToBinary o crc32 s = some (image
        (crc32 (summed bodySize bodySize rateId
          (s.numberSamples + padSamples s.sampleRateHz) (body s)))
        bodySize bodySize rateId (s.numberSamples + padSamples s.sampleRateHz) (body s)) := by
  obtain ⟨rateId, hid, _⟩ := sampleRateId_shift s.sampleRateHz h.rate
  have hlen := body_length s (Or.inr h.length)
  have hnat : (UInt32.ofNat (56 + (body s).length)).toNat = 56 + (body s).length :=
    UInt32.toNat_ofNat_of_lt' (hlen ▸ h.length)
  have hpad : (padSamples s.sampleRateHz).toNat = s.sampleRateHz.toNat * 24 / 100 := by
    have hp := h.pad
    rw [padSamples_eq _ h.rate]
    exact UInt32.toNat_ofNat_of_lt' (show _ < 2 ^ 32 by omega)
  have hadd := addU32_fits o s.numberSamples (padSamples s.sampleRateHz)
    (by rw [hpad]; exact h.pad)
  have h48 : (48 : UInt32).toNat = 48 := rfl
  have hsub := subU32_fits o (UInt32.ofNat (56 + (body s).length)) 48 (by rw [hnat, h48]; omega)
  refine ⟨rateId, _, hid, (encodeToBinary_eq_some o crc32 s _).mpr
    ⟨rateId, _, _, hid, hadd, ?_, hsub, rfl⟩⟩
  intro entry hentry
  exact (ascending_zero_iff _).mpr (h.nondecreasing entry ((mem_sortedEntries _ _).mp hentry))

/-- Reading undoes encoding: the rate, the count, the bands present and every peak. -/
theorem readSignature_encodeToBinary (o : Overflow) (crc32 : List UInt8 → UInt32)
    (s : DecodedSignature) (h : Encodable s) :
    ∃ bytes, encodeToBinary o crc32 s = some bytes ∧
      readSignature bytes = some (s.sampleRateHz, s.numberSamples,
        sortedEntries s.frequencyBandToSoundPeaks.entries) := by
  obtain ⟨rateId, bodySize, hid, hbytes⟩ := encodeToBinary_accepts o crc32 s h
  obtain ⟨id, hid', hrate⟩ := sampleRateId_shift s.sampleRateHz h.rate
  obtain rfl : id = rateId := Option.some.inj (hid'.symm.trans hid)
  have hlen := body_length s (Or.inr h.length)
  have hsections := readSections (sortedEntries s.frequencyBandToSoundPeaks.entries) (by
    intro entry hentry
    exact (ascending_zero_iff _).mpr (h.nondecreasing entry ((mem_sortedEntries _ _).mp hentry)))
  have hsub : s.numberSamples + padSamples s.sampleRateHz -
      UInt32.ofNat (s.sampleRateHz.toNat * 24 / 100) = s.numberSamples := by
    rw [padSamples_eq _ h.rate, UInt32.add_sub_cancel]
  refine ⟨_, hbytes, ?_⟩
  have hwalk := image_walk (crc32 (summed bodySize bodySize id
    (s.numberSamples + padSamples s.sampleRateHz) (body s))) bodySize bodySize id
    (s.numberSamples + padSamples s.sampleRateHz)
    (sortedEntries s.frequencyBandToSoundPeaks.entries)
    (by rw [← body, hlen]; exact h.length)
  rw [← body] at hwalk
  simp only [readSignature, readU32_rateId, readU32_numberSamplesPlus, hwalk, hrate, hsections,
    hsub, Option.bind_eq_bind, Option.bind_some, Option.pure_def]

/-- The binary signature loses nothing: a reader recovers every signature the format can
hold, and two such signatures with the same bytes are the same up to the map's order. -/
theorem signature_lossless (o : Overflow) (crc32 : List UInt8 → UInt32) :
    (∀ s, Encodable s → ∃ bytes entries, encodeToBinary o crc32 s = some bytes ∧
      readSignature bytes = some (s.sampleRateHz, s.numberSamples, entries) ∧
      entries.Perm s.frequencyBandToSoundPeaks.entries) ∧
    ∀ s t, Encodable s → Encodable t → encodeToBinary o crc32 s = encodeToBinary o crc32 t →
      s.sampleRateHz = t.sampleRateHz ∧ s.numberSamples = t.numberSamples ∧
      s.frequencyBandToSoundPeaks.entries.Perm t.frequencyBandToSoundPeaks.entries := by
  constructor
  · intro s hs
    obtain ⟨bytes, hbytes, hread⟩ := readSignature_encodeToBinary o crc32 s hs
    exact ⟨bytes, _, hbytes, hread, sortedEntries_perm _⟩
  · intro s t hs ht he
    obtain ⟨bytes, hbytes, hread⟩ := readSignature_encodeToBinary o crc32 s hs
    obtain ⟨bytes', hbytes', hread'⟩ := readSignature_encodeToBinary o crc32 t ht
    obtain rfl : bytes = bytes' := Option.some.inj (hbytes.symm.trans (he.trans hbytes'))
    have hsame := Option.some.inj (hread.symm.trans hread')
    simp only [Prod.mk.injEq] at hsame
    obtain ⟨hrate, hsamples, hentries⟩ := hsame
    refine ⟨hrate, hsamples, ?_⟩
    exact (sortedEntries_perm _).symm.trans (hentries ▸ sortedEntries_perm _)

theorem escapedSignature_encodable : Encodable escapedSignature where
  rate := by decide
  pad := by decide
  nondecreasing := by decide
  length := by decide

theorem escapedSignature_lossless : ∃ bytes entries,
    encodeToBinary .panics crc32Ieee escapedSignature = some bytes ∧
      readSignature bytes = some (16000, 128000, entries) ∧
      entries.Perm [⟨._520_1450, [⟨0, 1, 2⟩, ⟨300, 3, 4⟩]⟩, ⟨._250_520, []⟩] :=
  (signature_lossless .panics crc32Ieee).1 escapedSignature escapedSignature_encodable

end SignatureReader
