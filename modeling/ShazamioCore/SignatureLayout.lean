import Mathlib
import ShazamioCore.SignatureFormat

/-!
# What the encoder leaves in the buffer

The cursor's writes and seeks are resolved into one image of the finished buffer: the
header fields in order, then each band's section. A band's payload is given by
recursion on its peaks, with an escape wherever the gap leaves a byte.
-/
namespace SignatureLayout

open ByteCursor MachineInt SignatureFormat

/-- The pass numbers of a band never step back, counted from `pass` on. -/
def Ascending : UInt32 → List FrequencyPeak → Prop
  | _, [] => True
  | pass, peak :: peaks => pass ≤ peak.fftPassNumber ∧ Ascending peak.fftPassNumber peaks

def escaped (pass : UInt32) (peak : FrequencyPeak) : Prop :=
  255 ≤ peak.fftPassNumber.toNat - pass.toNat

instance (pass : UInt32) (peak : FrequencyPeak) : Decidable (escaped pass peak) := by
  unfold escaped; infer_instance

def deltaBytes (pass : UInt32) (peak : FrequencyPeak) : List UInt8 :=
  if escaped pass peak then 0xff :: (le32 peak.fftPassNumber ++ [0])
  else [(peak.fftPassNumber - pass).toUInt8]

def peakBytes (pass : UInt32) (peak : FrequencyPeak) : List UInt8 :=
  deltaBytes pass peak ++ (le16 peak.peakMagnitude ++ le16 peak.correctedPeakFrequencyBin)

def payload : UInt32 → List FrequencyPeak → List UInt8
  | _, [] => []
  | pass, peak :: peaks => peakBytes pass peak ++ payload peak.fftPassNumber peaks

/-- How many peaks of a band lie 255 passes or more past the one before. -/
def escapes : UInt32 → List FrequencyPeak → Nat
  | _, [] => 0
  | pass, peak :: peaks =>
    (if escaped pass peak then 1 else 0) + escapes peak.fftPassNumber peaks

@[simp] theorem payload_nil (pass : UInt32) : payload pass [] = [] := rfl
@[simp] theorem payload_cons (pass : UInt32) (peak : FrequencyPeak) (peaks : List FrequencyPeak) :
    payload pass (peak :: peaks) = peakBytes pass peak ++ payload peak.fftPassNumber peaks := rfl

/-- Nondecreasing pass numbers are all a band needs, whatever it starts from. -/
theorem ascending_iff (pass : UInt32) (peaks : List FrequencyPeak) :
    Ascending pass peaks ↔
      (pass :: peaks.map FrequencyPeak.fftPassNumber).Pairwise (· ≤ ·) := by
  induction peaks generalizing pass with
  | nil => simp [Ascending]
  | cons peak peaks ih =>
    rw [Ascending, ih, List.map_cons, List.pairwise_cons (a := pass)]
    constructor
    · rintro ⟨hle, hp⟩
      refine ⟨?_, hp⟩
      intro q hq
      rcases List.mem_cons.mp hq with rfl | hq
      · exact hle
      · exact UInt32.le_trans hle ((List.pairwise_cons.mp hp).1 q hq)
    · rintro ⟨hall, hp⟩
      exact ⟨hall _ (by simp), hp⟩

theorem ascending_zero_iff (peaks : List FrequencyPeak) :
    Ascending 0 peaks ↔ (peaks.map FrequencyPeak.fftPassNumber).Pairwise (· ≤ ·) := by
  rw [ascending_iff, List.pairwise_cons]
  refine ⟨fun h => h.2, fun h => ⟨?_, h⟩⟩
  intro q _
  exact UInt32.le_iff_toNat_le.mpr (Nat.zero_le _)

theorem peakBytes_length (pass : UInt32) (peak : FrequencyPeak) :
    (peakBytes pass peak).length = 5 + 5 * (if escaped pass peak then 1 else 0) := by
  by_cases h : escaped pass peak <;> simp [peakBytes, deltaBytes, h]

/-- Five bytes for each peak and five more for each escape. -/
theorem payload_length (pass : UInt32) (peaks : List FrequencyPeak) :
    (payload pass peaks).length = 5 * peaks.length + 5 * escapes pass peaks := by
  induction peaks generalizing pass with
  | nil => simp [escapes]
  | cons peak peaks ih =>
    simp only [payload_cons, List.length_append, peakBytes_length, ih, escapes, List.length_cons]
    omega

/-- One step of the peak loop: it stops exactly at a peak that steps back, and
otherwise appends the peak's bytes. -/
theorem writePeak_atEnd (o : Overflow) (bytes : List UInt8) (pass : UInt32)
    (peak : FrequencyPeak) (state : Cursor × UInt32) :
    writePeak o (Cursor.atEnd bytes, pass) peak = some state ↔
      pass ≤ peak.fftPassNumber ∧
        state = (Cursor.atEnd (bytes ++ peakBytes pass peak), peak.fftPassNumber) := by
  by_cases hle : pass ≤ peak.fftPassNumber
  · have hnat : pass.toNat ≤ peak.fftPassNumber.toNat := UInt32.le_iff_toNat_le.mp hle
    have hgap : (255 ≤ peak.fftPassNumber - pass) ↔ escaped pass peak := by
      rw [UInt32.le_iff_toNat_le, toNat_sub_fits _ _ hnat]
      rfl
    by_cases hesc : escaped pass peak
    · simp [writePeak, guard, hle, subU32_fits _ _ _ hnat, hgap, hesc, peakBytes,
        deltaBytes, eq_comm]
    · simp [writePeak, guard, hle, subU32_fits _ _ _ hnat, hgap, hesc, peakBytes,
        deltaBytes, eq_comm]
  · simp [writePeak, guard, hle]

/-- The loop over a band's peaks goes through exactly if they ascend, and appends their payload. -/
theorem writePeaks_atEnd (o : Overflow) (peaks : List FrequencyPeak) (bytes : List UInt8)
    (pass : UInt32) (cursor : Cursor) :
    (∃ last, peaks.foldlM (writePeak o) (Cursor.atEnd bytes, pass) = some (cursor, last)) ↔
      Ascending pass peaks ∧ cursor = Cursor.atEnd (bytes ++ payload pass peaks) := by
  induction peaks generalizing bytes pass with
  | nil => simp [Ascending, eq_comm]
  | cons peak peaks ih =>
    simp only [List.foldlM_cons, Option.bind_eq_bind, Option.bind_eq_some_iff, writePeak_atEnd,
      Ascending, payload_cons]
    constructor
    · rintro ⟨last, state, ⟨hle, rfl⟩, hrest⟩
      obtain ⟨hasc, hc⟩ := (ih _ _).mp ⟨last, hrest⟩
      exact ⟨⟨hle, hasc⟩, by rw [hc, List.append_assoc]⟩
    · rintro ⟨⟨hle, hasc⟩, hc⟩
      obtain ⟨last, hrest⟩ := (ih (bytes ++ peakBytes pass peak) _).mpr
        ⟨hasc, by rw [hc, List.append_assoc]⟩
      exact ⟨last, _, ⟨hle, rfl⟩, hrest⟩

theorem peaksBuffer_eq_some (o : Overflow) (peaks : List FrequencyPeak) (bytes : List UInt8) :
    peaksBuffer o peaks = some bytes ↔ Ascending 0 peaks ∧ bytes = payload 0 peaks := by
  have h := writePeaks_atEnd o peaks [] 0
  simp only [List.nil_append] at h
  rw [peaksBuffer, Cursor.empty_eq, Option.map_eq_some_iff]
  constructor
  · rintro ⟨⟨cursor, last⟩, hrun, rfl⟩
    obtain ⟨hasc, hc⟩ := (h cursor).mp ⟨last, hrun⟩
    exact ⟨hasc, by rw [hc, Cursor.atEnd_buffer]⟩
  · rintro ⟨hasc, rfl⟩
    obtain ⟨last, hrun⟩ := (h _).mpr ⟨hasc, rfl⟩
    exact ⟨_, hrun, rfl⟩

@[simp] theorem writePadding_atEnd (bytes : List UInt8) (n : Nat) :
    writePadding (Cursor.atEnd bytes) n = Cursor.atEnd (bytes ++ List.replicate n 0) := by
  induction n generalizing bytes with
  | zero => simp [writePadding]
  | succ n ih => simp [writePadding, ih, List.replicate_succ]

def bandMarker (band : FrequencyBand) : UInt32 := 0x60030040 + UInt32.ofNat band.discriminant

/-- A band as it lies in the buffer: marker, payload length, payload, padding. -/
def sectionBytes (entry : BandEntry) : List UInt8 :=
  le32 (bandMarker entry.1) ++ (le32 (UInt32.ofNat (payload 0 entry.2).length) ++
    (payload 0 entry.2 ++
      List.replicate (paddingLength (UInt32.ofNat (payload 0 entry.2).length).toNat) 0))

def sectionsBytes (entries : List BandEntry) : List UInt8 := entries.flatMap sectionBytes

@[simp] theorem sectionsBytes_nil : sectionsBytes [] = [] := rfl
@[simp] theorem sectionsBytes_cons (entry : BandEntry) (entries : List BandEntry) :
    sectionsBytes (entry :: entries) = sectionBytes entry ++ sectionsBytes entries := rfl

def body (s : DecodedSignature) : List UInt8 :=
  sectionsBytes (sortedEntries s.frequencyBandToSoundPeaks.entries)

theorem writeBand_atEnd (o : Overflow) (bytes : List UInt8) (entry : BandEntry)
    (cursor : Cursor) :
    writeBand o (Cursor.atEnd bytes) entry = some cursor ↔
      Ascending 0 entry.2 ∧ cursor = Cursor.atEnd (bytes ++ sectionBytes entry) := by
  simp only [writeBand, Option.bind_eq_bind, Option.bind_eq_some_iff, peaksBuffer_eq_some,
    Cursor.writeU32_atEnd, Cursor.write_atEnd, writePadding_atEnd, Option.pure_def,
    Option.some.injEq, sectionBytes, bandMarker, List.append_assoc]
  constructor
  · rintro ⟨_, ⟨hasc, rfl⟩, rfl⟩
    exact ⟨hasc, rfl⟩
  · rintro ⟨hasc, rfl⟩
    exact ⟨_, ⟨hasc, rfl⟩, rfl⟩

theorem writeBands_atEnd (o : Overflow) (entries : List BandEntry) (bytes : List UInt8)
    (cursor : Cursor) :
    entries.foldlM (writeBand o) (Cursor.atEnd bytes) = some cursor ↔
      (∀ entry ∈ entries, Ascending 0 entry.2) ∧
        cursor = Cursor.atEnd (bytes ++ sectionsBytes entries) := by
  induction entries generalizing bytes with
  | nil => simp [eq_comm]
  | cons entry entries ih =>
    simp only [List.foldlM_cons, Option.bind_eq_bind, Option.bind_eq_some_iff, writeBand_atEnd,
      List.forall_mem_cons, sectionsBytes_cons]
    constructor
    · rintro ⟨_, ⟨hasc, rfl⟩, hrest⟩
      obtain ⟨hall, hc⟩ := (ih _).mp hrest
      exact ⟨⟨hasc, hall⟩, by rw [hc, List.append_assoc]⟩
    · rintro ⟨⟨hasc, hall⟩, hc⟩
      exact ⟨_, ⟨hasc, rfl⟩, (ih _).mpr ⟨hall, by rw [hc, List.append_assoc]⟩⟩

def headerFields (rateId numberSamplesPlus : UInt32) : List UInt8 :=
  le32 0x94119c00 ++ (le32 0 ++ (le32 0 ++ (le32 0 ++ (le32 (rateId <<< 27) ++ (le32 0 ++
    (le32 0 ++ (le32 numberSamplesPlus ++ (le32 (((15 : UInt32) <<< 19) + 0x40000) ++
      le32 0x40000000))))))))

/-- Everything the checksum covers. -/
def summed (headerSize bodySize rateId numberSamplesPlus : UInt32) (sections : List UInt8) :
    List UInt8 :=
  le32 headerSize ++ (headerFields rateId numberSamplesPlus ++ (le32 bodySize ++ sections))

/-- The whole buffer, given the three fields that are filled in last. -/
def image (crc headerSize bodySize rateId numberSamplesPlus : UInt32) (sections : List UInt8) :
    List UInt8 :=
  le32 0xcafe2580 ++ (le32 crc ++ summed headerSize bodySize rateId numberSamplesPlus sections)

@[simp] theorem headerFields_length (rateId numberSamplesPlus : UInt32) :
    (headerFields rateId numberSamplesPlus).length = 40 := by simp [headerFields]

@[simp] theorem image_length (crc headerSize bodySize rateId numberSamplesPlus : UInt32)
    (sections : List UInt8) :
    (image crc headerSize bodySize rateId numberSamplesPlus sections).length =
      56 + sections.length := by
  simp only [image, summed, List.length_append, le32_length, headerFields_length]
  omega

theorem image_drop (crc headerSize bodySize rateId numberSamplesPlus : UInt32)
    (sections : List UInt8) :
    (image crc headerSize bodySize rateId numberSamplesPlus sections).drop 8 =
      summed headerSize bodySize rateId numberSamplesPlus sections := by
  have h : (le32 0xcafe2580 ++ le32 crc).length = 8 := by simp
  rw [image, ← List.append_assoc, ← h, List.drop_left]

section Fields

variable (crc headerSize bodySize rateId numberSamplesPlus : UInt32) (sections : List UInt8)

theorem image_split_bodySize :
    image crc headerSize bodySize rateId numberSamplesPlus sections =
      (le32 0xcafe2580 ++ (le32 crc ++ (le32 headerSize ++
        headerFields rateId numberSamplesPlus))) ++ (le32 bodySize ++ sections) := by
  simp only [image, summed, List.append_assoc]

theorem image_split_headerSize :
    image crc headerSize bodySize rateId numberSamplesPlus sections =
      (le32 0xcafe2580 ++ le32 crc) ++ (le32 headerSize ++
        (headerFields rateId numberSamplesPlus ++ (le32 bodySize ++ sections))) := by
  simp only [image, summed, List.append_assoc]

theorem readU32_crc :
    readU32 (image crc headerSize bodySize rateId numberSamplesPlus sections) 4 = some crc := by
  have hlen : (le32 0xcafe2580).length = 4 := by simp
  rw [image, ← hlen]
  exact readU32_append _ _ _

theorem readU32_headerSize :
    readU32 (image crc headerSize bodySize rateId numberSamplesPlus sections) 8 =
      some headerSize := by
  have hlen : (le32 0xcafe2580 ++ le32 crc).length = 8 := by simp
  rw [image_split_headerSize, ← hlen]
  exact readU32_append _ _ _

theorem readU32_rateId :
    readU32 (image crc headerSize bodySize rateId numberSamplesPlus sections) 28 =
      some (rateId <<< 27) := by
  have hlen : (le32 0xcafe2580 ++ (le32 crc ++ (le32 headerSize ++ (le32 0x94119c00 ++ (le32 0 ++
      (le32 0 ++ le32 0)))))).length = 28 := by simp
  have hsplit : image crc headerSize bodySize rateId numberSamplesPlus sections =
      (le32 0xcafe2580 ++ (le32 crc ++ (le32 headerSize ++ (le32 0x94119c00 ++ (le32 0 ++
        (le32 0 ++ le32 0)))))) ++ (le32 (rateId <<< 27) ++ (le32 0 ++ (le32 0 ++
          (le32 numberSamplesPlus ++ (le32 (((15 : UInt32) <<< 19) + 0x40000) ++
            (le32 0x40000000 ++ (le32 bodySize ++ sections))))))) := by
    simp only [image, summed, headerFields, List.append_assoc]
  rw [hsplit, ← hlen]
  exact readU32_append _ _ _

theorem readU32_numberSamplesPlus :
    readU32 (image crc headerSize bodySize rateId numberSamplesPlus sections) 40 =
      some numberSamplesPlus := by
  have hlen : (le32 0xcafe2580 ++ (le32 crc ++ (le32 headerSize ++ (le32 0x94119c00 ++ (le32 0 ++
      (le32 0 ++ (le32 0 ++ (le32 (rateId <<< 27) ++ (le32 0 ++ le32 0))))))))).length = 40 := by
    simp
  have hsplit : image crc headerSize bodySize rateId numberSamplesPlus sections =
      (le32 0xcafe2580 ++ (le32 crc ++ (le32 headerSize ++ (le32 0x94119c00 ++ (le32 0 ++
        (le32 0 ++ (le32 0 ++ (le32 (rateId <<< 27) ++ (le32 0 ++ le32 0))))))))) ++
        (le32 numberSamplesPlus ++ (le32 (((15 : UInt32) <<< 19) + 0x40000) ++
          (le32 0x40000000 ++ (le32 bodySize ++ sections)))) := by
    simp only [image, summed, headerFields, List.append_assoc]
  rw [hsplit, ← hlen]
  exact readU32_append _ _ _

theorem readU32_bodySize :
    readU32 (image crc headerSize bodySize rateId numberSamplesPlus sections) 52 =
      some bodySize := by
  have hlen : (le32 0xcafe2580 ++ (le32 crc ++ (le32 headerSize ++
      headerFields rateId numberSamplesPlus))).length = 52 := by simp
  rw [image_split_bodySize, ← hlen]
  exact readU32_append _ _ _

/-- The three late fields are bytes 4 to 11 and 52 to 55; no other byte depends on them. -/
theorem image_getElem? (i : Nat) (hsizes : ¬(4 ≤ i ∧ i < 12)) (hbody : ¬(52 ≤ i ∧ i < 56)) :
    (image crc headerSize bodySize rateId numberSamplesPlus sections)[i]? =
      (image 0 0 0 rateId numberSamplesPlus sections)[i]? := by
  have h₁ : (image crc headerSize bodySize rateId numberSamplesPlus sections)[i]? =
      (image 0 headerSize bodySize rateId numberSamplesPlus sections)[i]? :=
    getElem?_patch (le32 0xcafe2580) (le32 0) (le32 crc) _ (by simp) i
      (by simp only [le32_length]; omega)
  have h₂ : (image 0 headerSize bodySize rateId numberSamplesPlus sections)[i]? =
      (image 0 0 bodySize rateId numberSamplesPlus sections)[i]? := by
    rw [image_split_headerSize, image_split_headerSize]
    exact getElem?_patch _ (le32 0) (le32 headerSize) _ (by simp) i
      (by simp only [List.length_append, le32_length]; omega)
  have h₃ : (image 0 0 bodySize rateId numberSamplesPlus sections)[i]? =
      (image 0 0 0 rateId numberSamplesPlus sections)[i]? := by
    rw [image_split_bodySize, image_split_bodySize]
    exact getElem?_patch _ (le32 0) (le32 bodySize) _ (by simp) i
      (by simp only [List.length_append, le32_length, headerFields_length]; omega)
  rw [h₁, h₂, h₃]

end Fields

/-- The buffer before any seek: the three late fields are still zero. -/
theorem appendAll_eq_some (o : Overflow) (s : DecodedSignature) (cursor : Cursor) :
    appendAll o s = some cursor ↔
      ∃ rateId numberSamplesPlus, sampleRateId s.sampleRateHz = some rateId ∧
        addU32 o s.numberSamples (padSamples s.sampleRateHz) = some numberSamplesPlus ∧
        (∀ entry ∈ sortedEntries s.frequencyBandToSoundPeaks.entries, Ascending 0 entry.2) ∧
        cursor = Cursor.atEnd (image 0 0 0 rateId numberSamplesPlus (body s)) := by
  simp only [appendAll, Cursor.empty_eq, Cursor.writeU32_atEnd, Option.bind_eq_bind,
    Option.bind_eq_some_iff, writeBands_atEnd, image, summed, headerFields, body,
    List.append_assoc, List.nil_append]
  constructor
  · rintro ⟨rateId, hid, plus, hplus, hall, hc⟩
    exact ⟨rateId, plus, hid, hplus, hall, hc⟩
  · rintro ⟨rateId, plus, hid, hplus, hall, hc⟩
    exact ⟨rateId, hid, plus, hplus, hall, hc⟩

section Patches

variable (crc headerSize bodySize rateId numberSamplesPlus x : UInt32) (sections : List UInt8)

/-- A write at offset 8 replaces the first length and nothing else. -/
theorem patch_headerSize (c : Cursor) (hc : c.position = 8)
    (hb : c.buffer = image crc headerSize bodySize rateId numberSamplesPlus sections) :
    (c.writeU32 x).buffer = image crc x bodySize rateId numberSamplesPlus sections := by
  obtain ⟨buffer, position⟩ := c
  have hlen : (le32 0xcafe2580 ++ le32 crc).length = 8 := by simp
  simp only at hc hb
  subst hc hb
  rw [image_split_headerSize, ← hlen, Cursor.writeU32, Cursor.write_patch _ _ _ _ (by simp),
    image_split_headerSize]

/-- A write at offset 52 replaces the second length and nothing else. -/
theorem patch_bodySize (c : Cursor) (hc : c.position = 48 + 4)
    (hb : c.buffer = image crc headerSize bodySize rateId numberSamplesPlus sections) :
    (c.writeU32 x).buffer = image crc headerSize x rateId numberSamplesPlus sections := by
  obtain ⟨buffer, position⟩ := c
  have hlen : (le32 0xcafe2580 ++ (le32 crc ++ (le32 headerSize ++
      headerFields rateId numberSamplesPlus))).length = 48 + 4 := by simp
  simp only at hc hb
  subst hc hb
  rw [image_split_bodySize, ← hlen, Cursor.writeU32, Cursor.write_patch _ _ _ _ (by simp),
    image_split_bodySize]

/-- A write at offset 4 replaces the checksum and nothing else. -/
theorem patch_crc (c : Cursor) (hc : c.position = 4)
    (hb : c.buffer = image crc headerSize bodySize rateId numberSamplesPlus sections) :
    (c.writeU32 x).buffer = image x headerSize bodySize rateId numberSamplesPlus sections := by
  obtain ⟨buffer, position⟩ := c
  have hlen : (le32 0xcafe2580).length = 4 := by simp
  simp only at hc hb
  subst hc hb
  rw [image, ← hlen, Cursor.writeU32, Cursor.write_patch _ _ _ _ (by simp), image]

end Patches

/-- The three patches together: the checksum is taken with both lengths in place. -/
theorem patch_eq_some (o : Overflow) (crc32 : List UInt8 → UInt32)
    (rateId numberSamplesPlus : UInt32) (sections bytes : List UInt8) :
    patch o crc32 (Cursor.atEnd (image 0 0 0 rateId numberSamplesPlus sections)) = some bytes ↔
      ∃ bodySize, subU32 o (UInt32.ofNat (56 + sections.length)) 48 = some bodySize ∧
        bytes = image (crc32 (summed bodySize bodySize rateId numberSamplesPlus sections))
          bodySize bodySize rateId numberSamplesPlus sections := by
  have himage : ∀ size : UInt32,
      ((((((((Cursor.atEnd (image 0 0 0 rateId numberSamplesPlus sections)).seek 8).writeU32
        size).seek (48 + 4)).writeU32 size).seek 4)).buffer) =
          image 0 size size rateId numberSamplesPlus sections := by
    intro size
    have hheader := patch_headerSize 0 0 0 rateId numberSamplesPlus size sections
      ((Cursor.atEnd (image 0 0 0 rateId numberSamplesPlus sections)).seek 8) rfl rfl
    exact patch_bodySize 0 size 0 rateId numberSamplesPlus size sections _ rfl hheader
  simp only [patch, Cursor.atEnd_position, image_length, Option.bind_eq_bind,
    Option.bind_eq_some_iff, Option.pure_def, Option.some.injEq]
  constructor
  · rintro ⟨size, hsize, size', hsize', rfl⟩
    obtain rfl : size = size' := Option.some.inj (hsize.symm.trans hsize')
    refine ⟨size, hsize, ?_⟩
    rw [himage, image_drop]
    exact patch_crc 0 size size rateId numberSamplesPlus _ sections _ rfl (himage size)
  · rintro ⟨size, hsize, rfl⟩
    refine ⟨size, hsize, size, hsize, ?_⟩
    rw [himage, image_drop]
    exact patch_crc 0 size size rateId numberSamplesPlus _ sections _ rfl (himage size)

/-- What `encodeToBinary` accepts and what it returns, with no cursor left in sight. -/
theorem encodeToBinary_eq_some (o : Overflow) (crc32 : List UInt8 → UInt32)
    (s : DecodedSignature) (bytes : List UInt8) :
    encodeToBinary o crc32 s = some bytes ↔
      ∃ rateId numberSamplesPlus bodySize, sampleRateId s.sampleRateHz = some rateId ∧
        addU32 o s.numberSamples (padSamples s.sampleRateHz) = some numberSamplesPlus ∧
        (∀ entry ∈ sortedEntries s.frequencyBandToSoundPeaks.entries, Ascending 0 entry.2) ∧
        subU32 o (UInt32.ofNat (56 + (body s).length)) 48 = some bodySize ∧
        bytes = image (crc32 (summed bodySize bodySize rateId numberSamplesPlus (body s)))
          bodySize bodySize rateId numberSamplesPlus (body s) := by
  simp only [encodeToBinary, Option.bind_eq_bind, Option.bind_eq_some_iff, appendAll_eq_some]
  constructor
  · rintro ⟨_, ⟨rateId, plus, hid, hplus, hall, rfl⟩, hp⟩
    obtain ⟨size, hsize, hbytes⟩ := (patch_eq_some _ _ _ _ _ _).mp hp
    exact ⟨rateId, plus, size, hid, hplus, hall, hsize, hbytes⟩
  · rintro ⟨rateId, plus, size, hid, hplus, hall, hsize, hbytes⟩
    exact ⟨_, ⟨rateId, plus, hid, hplus, hall, rfl⟩,
      (patch_eq_some _ _ _ _ _ _).mpr ⟨size, hsize, hbytes⟩⟩

theorem sortedEntries_perm (entries : List BandEntry) :
    (sortedEntries entries).Perm entries := List.perm_insertionSort _ _

theorem mem_sortedEntries (entries : List BandEntry) (entry : BandEntry) :
    entry ∈ sortedEntries entries ↔ entry ∈ entries := (sortedEntries_perm entries).mem_iff

end SignatureLayout
