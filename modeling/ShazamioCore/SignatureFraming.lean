import Mathlib
import ShazamioCore.SignatureLayout

/-!
# Framing of the binary signature

The walk a reader makes over the sections of a signature, and the exact framing of
every signature the encoder returns: its length, both length fields, the checksum,
the padding, and the bytes the three seeks leave alone.
-/
namespace SignatureFraming

open ByteCursor MachineInt SignatureFormat SignatureLayout

/-- One step of the walk over the band list, with what it steps over. -/
structure Section where
  marker : UInt32
  payload : List UInt8
  padding : List UInt8
  deriving DecidableEq, Repr

def firstBandOffset : Nat := 56

/-- `band_markers`: a marker, a length, that many bytes of peaks, then padding up to the
next multiple of four. The offset it stops at is returned with the sections. -/
def walk (encoded : List UInt8) (offset : Nat) : Option (List Section × Nat) :=
  if offset < encoded.length then do
    let marker ← readU32 encoded offset
    let peaksLength ← readU32 encoded (offset + 4)
    let padding := paddingLength peaksLength.toNat
    let (sections, stop) ← walk encoded (offset + 8 + peaksLength.toNat + padding)
    return (⟨marker, (encoded.drop (offset + 8)).take peaksLength.toNat,
      (encoded.drop (offset + 8 + peaksLength.toNat)).take padding⟩ :: sections, stop)
  else some ([], offset)
termination_by encoded.length - offset

def bandMarkers (encoded : List UInt8) : Option (List UInt32) :=
  (walk encoded firstBandOffset).map fun walked => walked.1.map Section.marker

def sectionOf (entry : BandEntry) : Section :=
  ⟨bandMarker entry.1, payload 0 entry.2,
    List.replicate (paddingLength (payload 0 entry.2).length) 0⟩

/-- Payload and padding together are the payload rounded up to a multiple of four. -/
theorem add_paddingLength (n : Nat) : n + paddingLength n = (n + 3) / 4 * 4 := by
  rw [paddingLength]
  omega

def bandLength (entry : BandEntry) : Nat :=
  8 + (5 * entry.2.length + 5 * escapes 0 entry.2 + 3) / 4 * 4

theorem sectionBytes_eq (entry : BandEntry) (h : (payload 0 entry.2).length < 2 ^ 32) :
    sectionBytes entry = le32 (bandMarker entry.1) ++
      (le32 (UInt32.ofNat (payload 0 entry.2).length) ++
        (payload 0 entry.2 ++ (sectionOf entry).padding)) := by
  rw [sectionBytes, UInt32.toNat_ofNat_of_lt' h, sectionOf]

/-- No payload outgrows its length field in a buffer that does not outgrow its own. -/
theorem payload_length_le (entries : List BandEntry) (entry : BandEntry) (h : entry ∈ entries) :
    (payload 0 entry.2).length ≤ (sectionsBytes entries).length := by
  obtain ⟨before, after, rfl⟩ := List.append_of_mem h
  simp only [sectionsBytes, List.flatMap_append, List.flatMap_cons, List.length_append,
    sectionBytes]
  omega

theorem sectionBytes_length (entry : BandEntry) (h : (payload 0 entry.2).length < 2 ^ 32) :
    (sectionBytes entry).length = bandLength entry := by
  have hpad := add_paddingLength (payload 0 entry.2).length
  rw [sectionBytes_eq entry h]
  simp only [List.length_append, le32_length, sectionOf, List.length_replicate, bandLength]
  rw [payload_length] at hpad ⊢
  omega

theorem sectionsBytes_length (entries : List BandEntry)
    (h : ∀ entry ∈ entries, (payload 0 entry.2).length < 2 ^ 32) :
    (sectionsBytes entries).length = (entries.map bandLength).sum := by
  induction entries with
  | nil => rfl
  | cons entry entries ih =>
    obtain ⟨hentry, hrest⟩ := List.forall_mem_cons.mp h
    rw [sectionsBytes_cons, List.length_append, sectionBytes_length entry hentry, ih hrest,
      List.map_cons, List.sum_cons]

def encodedLength (s : DecodedSignature) : Nat :=
  56 + (s.frequencyBandToSoundPeaks.entries.map bandLength).sum

theorem body_length (s : DecodedSignature)
    (h : (body s).length < 2 ^ 32 ∨ encodedLength s < 2 ^ 32) :
    56 + (body s).length = encodedLength s := by
  have hperm := sortedEntries_perm s.frequencyBandToSoundPeaks.entries
  rw [encodedLength, ← (hperm.map bandLength).sum_eq]
  suffices hall : ∀ entry ∈ sortedEntries s.frequencyBandToSoundPeaks.entries,
      (payload 0 entry.2).length < 2 ^ 32 by rw [body, sectionsBytes_length _ hall]
  intro entry hentry
  rcases h with h | h
  · exact Nat.lt_of_le_of_lt (payload_length_le _ entry hentry) h
  · have hband : bandLength entry ≤
        (s.frequencyBandToSoundPeaks.entries.map bandLength).sum :=
      List.single_le_sum (by simp) _
        (List.mem_map_of_mem ((mem_sortedEntries _ entry).mp hentry))
    have hlen := payload_length 0 entry.2
    simp only [bandLength, encodedLength] at hband h
    omega

theorem walk_end (encoded : List UInt8) :
    walk encoded encoded.length = some ([], encoded.length) := by
  rw [walk, if_neg (Nat.lt_irrefl _)]

/-- One section is walked over whatever stands before and after it. -/
theorem walk_section (before after : List UInt8) (entry : BandEntry)
    (h : (payload 0 entry.2).length < 2 ^ 32) :
    walk (before ++ (sectionBytes entry ++ after)) before.length =
      (walk (before ++ (sectionBytes entry ++ after))
        (before ++ sectionBytes entry).length).map
          fun walked => (sectionOf entry :: walked.1, walked.2) := by
  rw [sectionBytes_eq entry h]
  set marker := le32 (bandMarker entry.1) with hmarker
  set size := UInt32.ofNat (payload 0 entry.2).length with hsize
  set encoded := before ++ ((marker ++ (le32 size ++
    (payload 0 entry.2 ++ (sectionOf entry).padding))) ++ after) with hencoded
  have hsizeNat : size.toNat = (payload 0 entry.2).length := UInt32.toNat_ofNat_of_lt' h
  have hpadLen : (sectionOf entry).padding.length = paddingLength size.toNat := by
    simp [sectionOf, hsizeNat]
  have hin : before.length < encoded.length := by
    simp only [hencoded, hmarker, List.length_append, le32_length]
    omega
  have hread₁ : readU32 encoded before.length = some (bandMarker entry.1) := by
    rw [hencoded, hmarker, List.append_assoc]
    exact readU32_append before _ _
  have hlen₂ : before.length + 4 = (before ++ marker).length := by simp [hmarker]
  have hread₂ : readU32 encoded (before.length + 4) = some size := by
    have he : encoded = (before ++ marker) ++ (le32 size ++
        ((payload 0 entry.2 ++ (sectionOf entry).padding) ++ after)) := by
      simp only [hencoded, List.append_assoc]
    rw [hlen₂, he]
    exact readU32_append _ _ _
  have hsplit : encoded = (before ++ (marker ++ le32 size)) ++
      (payload 0 entry.2 ++ ((sectionOf entry).padding ++ after)) := by
    simp only [hencoded, List.append_assoc]
  have hlen₃ : before.length + 8 = (before ++ (marker ++ le32 size)).length := by
    simp [hmarker]
  have hpayload : (encoded.drop (before.length + 8)).take size.toNat = payload 0 entry.2 := by
    rw [hlen₃, hsplit, List.drop_left, hsizeNat, List.take_left]
  have hpadding : (encoded.drop (before.length + 8 + size.toNat)).take
      (paddingLength size.toNat) = (sectionOf entry).padding := by
    rw [← List.drop_drop, hlen₃, hsplit, List.drop_left, hsizeNat, List.drop_left, ← hsizeNat,
      ← hpadLen, List.take_left]
  have hnext : before.length + 8 + size.toNat + paddingLength size.toNat =
      (before ++ (marker ++ (le32 size ++
        (payload 0 entry.2 ++ (sectionOf entry).padding)))).length := by
    simp only [hmarker, List.length_append, le32_length, hpadLen, hsizeNat]
    omega
  rw [walk, if_pos hin, hread₁, hread₂]
  simp only [Option.bind_eq_bind, Option.bind_some, Option.pure_def, hpayload, hpadding, hnext,
    Option.map_eq_bind]
  rfl

/-- The walk meets every section once, in order, and stops at the end of the buffer. -/
theorem walk_sections (entries : List BandEntry) (before : List UInt8)
    (h : (before ++ sectionsBytes entries).length < 2 ^ 32) :
    walk (before ++ sectionsBytes entries) before.length =
      some (entries.map sectionOf, (before ++ sectionsBytes entries).length) := by
  induction entries generalizing before with
  | nil =>
    rw [sectionsBytes_nil, List.append_nil]
    exact walk_end before
  | cons entry entries ih =>
    have hentry : (payload 0 entry.2).length < 2 ^ 32 := by
      have hle := payload_length_le (entry :: entries) entry (by simp)
      rw [List.length_append] at h
      omega
    have hrest := ih (before ++ sectionBytes entry) (by
      simpa only [sectionsBytes_cons, List.append_assoc] using h)
    rw [List.append_assoc] at hrest
    rw [sectionsBytes_cons, walk_section before _ entry hentry, hrest]
    rfl

theorem image_walk (crc headerSize bodySize rateId numberSamplesPlus : UInt32)
    (entries : List BandEntry) (h : 56 + (sectionsBytes entries).length < 2 ^ 32) :
    walk (image crc headerSize bodySize rateId numberSamplesPlus (sectionsBytes entries))
      firstBandOffset = some (entries.map sectionOf, 56 + (sectionsBytes entries).length) := by
  have hlen : (le32 0xcafe2580 ++ (le32 crc ++ (le32 headerSize ++
      (headerFields rateId numberSamplesPlus ++ le32 bodySize)))).length = firstBandOffset := by
    simp [firstBandOffset]
  have hsplit : image crc headerSize bodySize rateId numberSamplesPlus (sectionsBytes entries) =
      (le32 0xcafe2580 ++ (le32 crc ++ (le32 headerSize ++
        (headerFields rateId numberSamplesPlus ++ le32 bodySize)))) ++ sectionsBytes entries := by
    simp only [image, summed, List.append_assoc]
  have hw := walk_sections entries (le32 0xcafe2580 ++ (le32 crc ++ (le32 headerSize ++
    (headerFields rateId numberSamplesPlus ++ le32 bodySize))))
  rw [← hsplit, hlen, image_length] at hw
  exact hw h

theorem bodySize_eq (o : Overflow) (n : Nat) (bodySize : UInt32) (hn : 48 ≤ n)
    (hn' : n < 2 ^ 32) (h : subU32 o (UInt32.ofNat n) 48 = some bodySize) :
    bodySize = UInt32.ofNat (n - 48) := by
  have hnat : (UInt32.ofNat n).toNat = n := UInt32.toNat_ofNat_of_lt' hn'
  have hle : (48 : UInt32).toNat ≤ (UInt32.ofNat n).toNat := by rw [hnat]; exact hn
  apply UInt32.toNat_inj.mp
  rw [subU32_eq o _ _ _ h, toNat_sub_fits _ _ hle, hnat,
    UInt32.toNat_ofNat_of_lt' (show n - 48 < UInt32.size by
      have : UInt32.size = 2 ^ 32 := rfl
      omega)]
  rfl

/-- Every signature the encoder returns is framed exactly: the length of the whole, both
length fields, the checksum over the finished buffer, a walk that ends where the buffer
does over zero padding, and no byte changed by the seeks outside the three fields. -/
theorem encoded_framing (o : Overflow) (crc32 : List UInt8 → UInt32) (s : DecodedSignature)
    (bytes : List UInt8) (h : encodeToBinary o crc32 s = some bytes)
    (hlen : bytes.length < 2 ^ 32) :
    bytes.length = encodedLength s ∧
    readU32 bytes 8 = some (UInt32.ofNat (bytes.length - 48)) ∧
    readU32 bytes 52 = some (UInt32.ofNat (bytes.length - 48)) ∧
    readU32 bytes 4 = some (crc32 (bytes.drop 8)) ∧
    (∃ sections, walk bytes firstBandOffset = some (sections, bytes.length) ∧
      ∀ sec ∈ sections, sec.padding = List.replicate (paddingLength sec.payload.length) 0) ∧
    ∃ cursor, appendAll o s = some cursor ∧ cursor.buffer.length = bytes.length ∧
      ∀ i, ¬(4 ≤ i ∧ i < 12) → ¬(52 ≤ i ∧ i < 56) → bytes[i]? = cursor.buffer[i]? := by
  obtain ⟨rateId, plus, size, hid, hplus, hasc, hsize, hbytes⟩ :=
    (encodeToBinary_eq_some o crc32 s bytes).mp h
  have hbytesLen : bytes.length = 56 + (body s).length := by rw [hbytes, image_length]
  have hbody := body_length s (Or.inl (by omega))
  rw [← hbytesLen] at hsize
  have hsizeEq := bodySize_eq o bytes.length size (by omega) hlen hsize
  refine ⟨hbytesLen.trans hbody, ?_, ?_, ?_, ?_, ?_⟩
  · rw [← hsizeEq, hbytes]
    exact readU32_headerSize _ _ _ _ _ _
  · rw [← hsizeEq, hbytes]
    exact readU32_bodySize _ _ _ _ _ _
  · rw [hbytes, readU32_crc, image_drop]
  · refine ⟨(sortedEntries s.frequencyBandToSoundPeaks.entries).map sectionOf, ?_, ?_⟩
    · rw [hbytesLen, hbytes]
      exact image_walk _ _ _ _ _ _ (by rw [← body]; omega)
    · intro sec hsec
      obtain ⟨entry, _, rfl⟩ := List.mem_map.mp hsec
      rfl
  · refine ⟨_, (appendAll_eq_some o s _).mpr ⟨rateId, plus, hid, hplus, hasc, rfl⟩, ?_, ?_⟩
    · rw [Cursor.atEnd_buffer, image_length, hbytesLen]
    · intro i hsizes hbodySize
      rw [hbytes, Cursor.atEnd_buffer]
      exact image_getElem? _ _ _ _ _ _ i hsizes hbodySize

/-- One byte of the IEEE checksum, low bit first. -/
def crcByte (crc : UInt32) (byte : UInt8) : UInt32 :=
  (List.range 8).foldl (fun c _ => if c % 2 = 1 then (c >>> 1) ^^^ 0xedb88320 else c >>> 1)
    (crc ^^^ byte.toUInt32)

def crc32Ieee (bytes : List UInt8) : UInt32 := bytes.foldl crcByte 0xffffffff ^^^ 0xffffffff

/-- Two bands, listed highest first: one with an escape, one without a peak. -/
def escapedSignature : DecodedSignature where
  sampleRateHz := 16000
  numberSamples := 128000
  frequencyBandToSoundPeaks :=
    ⟨[⟨._520_1450, [⟨0, 1, 2⟩, ⟨300, 3, 4⟩]⟩, ⟨._250_520, []⟩], by simp [List.NodupKeys, List.keys]⟩

theorem escapedSignature_framing : ∃ bytes,
    encodeToBinary .panics crc32Ieee escapedSignature = some bytes ∧ bytes.length = 88 := by
  have h : (encodeToBinary .panics crc32Ieee escapedSignature).isSome := by decide +kernel
  obtain ⟨bytes, hb⟩ := Option.isSome_iff_exists.mp h
  have hl : (encodeToBinary .panics crc32Ieee escapedSignature).all
    fun bytes => bytes.length < 2 ^ 32 := by decide +kernel
  rw [hb] at hl
  have hlen : bytes.length < 2 ^ 32 := of_decide_eq_true hl
  have hf := (encoded_framing .panics crc32Ieee escapedSignature bytes hb hlen).1
  exact ⟨bytes, hb, hf⟩

end SignatureFraming
