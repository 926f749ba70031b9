import Mathlib
import ShazamioCore.BandOrder
import ShazamioCore.Communication
import ShazamioCore.SignatureSize

/-!
# Reading the URI back

The URI handed to Python is a prefix and the bytes of the signature in base64. A reader takes
both off again and reads the signature, so from the URI of a buffer one has its rate, its
length and, band by band, the landmarks of its peaks.
-/
namespace DataUri

open MachineInt SignatureFormat SignatureLayout SignatureFraming SignatureReader Algorithm
  PeakDetection GeneratorRun StreamingPeaks SampleRing Communication

section Base64

def base64Value (c : Char) : Option Nat :=
  if 'A' ≤ c ∧ c ≤ 'Z' then some (c.toNat - 65)
  else if 'a' ≤ c ∧ c ≤ 'z' then some (c.toNat - 71)
  else if '0' ≤ c ∧ c ≤ '9' then some (c.toNat + 4)
  else if c = '+' then some 62
  else if c = '/' then some 63
  else none

/-- Four digits to three bytes, the last four with up to two of them padding. -/
def readBase64 : List Char → Option (List UInt8)
  | [] => some []
  | w :: x :: y :: z :: rest => do
    let first ← base64Value w
    let second ← base64Value x
    let a := UInt8.ofNat (first * 4 + second / 16)
    if z = '=' then
      guard (rest = [])
      if y = '=' then return [a]
      else
        let third ← base64Value y
        return [a, UInt8.ofNat (second % 16 * 16 + third / 4)]
    else
      let third ← base64Value y
      let fourth ← base64Value z
      let bytes ← readBase64 rest
      return a :: UInt8.ofNat (second % 16 * 16 + third / 4) ::
        UInt8.ofNat (third % 4 * 64 + fourth) :: bytes
  | _ => none

theorem base64Value_digit : ∀ n < 64, base64Value (base64Digit n) = some n := by
  decide +kernel

theorem base64Digit_ne_pad : ∀ n < 64, base64Digit n ≠ '=' := by
  decide +kernel

theorem uint8_ofNat_eq (b : UInt8) (n : Nat) (h : n = b.toNat) : UInt8.ofNat n = b := by
  rw [h, UInt8.ofNat_toNat]

/-- Reading undoes the encoding, however many bytes are left for the last four digits. -/
theorem readBase64_base64Digits (bytes : List UInt8) :
    readBase64 (base64Digits bytes) = some bytes := by
  fun_induction base64Digits bytes with
  | case1 => rfl
  | case2 a =>
    have ha := a.toNat_lt
    have hfirst := base64Value_digit (a.toNat / 4) (by omega)
    have hsecond := base64Value_digit (a.toNat % 4 * 16) (by omega)
    have hbyte := uint8_ofNat_eq a (a.toNat / 4 * 4 + a.toNat % 4 * 16 / 16) (by omega)
    simp only [readBase64, hfirst, hsecond, hbyte, guard, if_true, Option.bind_eq_bind,
      Option.bind_some, Option.pure_def]
  | case3 a b =>
    have ha := a.toNat_lt
    have hb := b.toNat_lt
    have hfirst := base64Value_digit (a.toNat / 4) (by omega)
    have hsecond := base64Value_digit (a.toNat % 4 * 16 + b.toNat / 16) (by omega)
    have hthird := base64Value_digit (b.toNat % 16 * 4) (by omega)
    have hpad := base64Digit_ne_pad (b.toNat % 16 * 4) (by omega)
    have hbyte := uint8_ofNat_eq a
      (a.toNat / 4 * 4 + (a.toNat % 4 * 16 + b.toNat / 16) / 16) (by omega)
    have hbyte' := uint8_ofNat_eq b
      ((a.toNat % 4 * 16 + b.toNat / 16) % 16 * 16 + b.toNat % 16 * 4 / 4) (by omega)
    simp only [readBase64, hfirst, hsecond, hthird, hpad, hbyte, hbyte', guard, if_true, if_false,
      Option.bind_eq_bind, Option.bind_some, Option.pure_def]
  | case4 a b c rest ih =>
    have ha := a.toNat_lt
    have hb := b.toNat_lt
    have hc := c.toNat_lt
    have hfirst := base64Value_digit (a.toNat / 4) (by omega)
    have hsecond := base64Value_digit (a.toNat % 4 * 16 + b.toNat / 16) (by omega)
    have hthird := base64Value_digit (b.toNat % 16 * 4 + c.toNat / 64) (by omega)
    have hfourth := base64Value_digit (c.toNat % 64) (by omega)
    have hpad := base64Digit_ne_pad (c.toNat % 64) (by omega)
    have hbyte := uint8_ofNat_eq a
      (a.toNat / 4 * 4 + (a.toNat % 4 * 16 + b.toNat / 16) / 16) (by omega)
    have hbyte' := uint8_ofNat_eq b ((a.toNat % 4 * 16 + b.toNat / 16) % 16 * 16 +
      (b.toNat % 16 * 4 + c.toNat / 64) / 4) (by omega)
    have hbyte'' := uint8_ofNat_eq c
      ((b.toNat % 16 * 4 + c.toNat / 64) % 4 * 64 + c.toNat % 64) (by omega)
    simp only [readBase64, hfirst, hsecond, hthird, hfourth, hpad, hbyte, hbyte', hbyte'', ih,
      if_false, Option.bind_eq_bind, Option.bind_some, Option.pure_def]

theorem length_base64Digits (bytes : List UInt8) :
    (base64Digits bytes).length = 4 * ((bytes.length + 2) / 3) := by
  fun_induction base64Digits bytes with
  | case1 => rfl
  | case2 a => simp
  | case3 a b => simp
  | case4 a b c rest ih =>
    simp only [List.length_cons, ih]
    omega

end Base64

def readUri (uri : String) : Option (UInt32 × UInt32 × List BandEntry) := do
  guard (dataUriPrefix.toList <+: uri.toList)
  let bytes ← readBase64 (uri.toList.drop dataUriPrefix.length)
  readSignature bytes

theorem readUri_standardBase64 (bytes : List UInt8) :
    readUri (dataUriPrefix ++ standardBase64 bytes) = readSignature bytes := by
  have hlist : (dataUriPrefix ++ standardBase64 bytes).toList =
      dataUriPrefix.toList ++ base64Digits bytes := by
    rw [String.toList_append, standardBase64, String.toList_ofList]
  have hprefix : dataUriPrefix.toList <+: (dataUriPrefix ++ standardBase64 bytes).toList := by
    rw [hlist]
    exact List.prefix_append _ _
  have hdrop : (dataUriPrefix ++ standardBase64 bytes).toList.drop dataUriPrefix.length =
      base64Digits bytes := by
    rw [hlist, ← String.length_toList, List.drop_left]
  simp only [readUri, hdrop, readBase64_base64Digits, guard, if_pos hprefix, Option.bind_eq_bind,
    Option.bind_some, Option.pure_def]

theorem length_uri (bytes : List UInt8) :
    (dataUriPrefix ++ standardBase64 bytes).length = 33 + 4 * ((bytes.length + 2) / 3) := by
  have hprefix : dataUriPrefix.length = 33 := by decide
  rw [String.length_append, hprefix, standardBase64, String.length_ofList, length_base64Digits]

/-- The URI of a signature the format can hold is read back to it. -/
theorem readUri_encodeToUri (o : Overflow) (crc32 : List UInt8 → UInt32) (s : DecodedSignature)
    (h : Encodable s) :
    ∃ uri, encodeToUri o crc32 standardBase64 s = some uri ∧
      readUri uri = some (s.sampleRateHz, s.numberSamples,
        sortedEntries s.frequencyBandToSoundPeaks.entries) ∧
      uri.length = 33 + 4 * ((encodedLength s + 2) / 3) := by
  obtain ⟨bytes, hbytes, hread⟩ := readSignature_encodeToBinary o crc32 s h
  obtain ⟨rateId, bodySize, -, himage⟩ := encodeToBinary_accepts o crc32 s h
  have hlength : bytes.length = encodedLength s := by
    obtain rfl := Option.some.inj (hbytes.symm.trans himage)
    rw [image_length, body_length s (Or.inr h.length)]
  refine ⟨dataUriPrefix ++ standardBase64 bytes, ?_, ?_, ?_⟩
  · rw [encodeToUri, hbytes]
    rfl
  · rw [readUri_standardBase64, hread]
  · rw [length_uri, hlength]

/-- Two signatures have one URI exactly when they are the same but for the map's order. -/
theorem encodeToUri_inj (o : Overflow) (crc32 : List UInt8 → UInt32) (s t : DecodedSignature)
    (hs : Encodable s) (ht : Encodable t) :
    encodeToUri o crc32 standardBase64 s = encodeToUri o crc32 standardBase64 t ↔
      s.sampleRateHz = t.sampleRateHz ∧ s.numberSamples = t.numberSamples ∧
        s.frequencyBandToSoundPeaks.entries.Perm t.frequencyBandToSoundPeaks.entries := by
  constructor
  · intro heq
    obtain ⟨uri, huri, hread, -⟩ := readUri_encodeToUri o crc32 s hs
    obtain ⟨uri', huri', hread', -⟩ := readUri_encodeToUri o crc32 t ht
    obtain rfl := Option.some.inj (huri.symm.trans (heq.trans huri'))
    have hsame := Option.some.inj (hread.symm.trans hread')
    simp only [Prod.mk.injEq] at hsame
    obtain ⟨hrate, hnumber, hentries⟩ := hsame
    refine ⟨hrate, hnumber, ?_⟩
    exact (sortedEntries_perm _).symm.trans (hentries ▸ sortedEntries_perm _)
  · rintro ⟨hrate, hnumber, hperm⟩
    obtain ⟨rate, number, bands⟩ := s
    obtain ⟨rate', number', bands'⟩ := t
    obtain rfl : rate = rate' := hrate
    obtain rfl : number = number' := hnumber
    have hsorted := BandOrder.sortedEntries_eq_of_perm bands bands' hperm
    simp only [encodeToUri, encodeToBinary, appendAll, hsorted]

theorem reorderedBands_nodup : List.NodupKeys (α := FrequencyBand)
    (β := fun _ => List FrequencyPeak)
    [⟨._250_520, []⟩, ⟨._520_1450, [⟨0, 1, 2⟩, ⟨300, 3, 4⟩]⟩] := by
  simp [List.NodupKeys, List.keys]

/-- The escaped signature with its map the other way round. -/
def reorderedSignature : DecodedSignature where
  sampleRateHz := 16000
  numberSamples := 128000
  frequencyBandToSoundPeaks := ⟨_, reorderedBands_nodup⟩

theorem encodeToUri_reordered :
    encodeToUri .panics crc32Ieee standardBase64 escapedSignature =
      encodeToUri .panics crc32Ieee standardBase64 reorderedSignature := by
  have hencodable : Encodable reorderedSignature :=
    { rate := by decide, pad := by decide, nondecreasing := by decide, length := by decide }
  exact (encodeToUri_inj .panics crc32Ieee escapedSignature reorderedSignature
    escapedSignature_encodable hencodable).mpr ⟨rfl, rfl, List.Perm.swap _ _ []⟩

section Buffer

variable {α : Type} [LinearOrder α] [F32 α]

/-- The bands that hold anything, lowest first, with their landmarks. -/
def recordedEntries (o : Overflow) (r : Nat → Spectrum α) (n : Nat) : List BandEntry :=
  Locality.allBands.filterMap fun band =>
    if bandPeaks o r n band = [] then none else some ⟨band, bandPeaks o r n band⟩

theorem mem_recordedEntries (o : Overflow) (r : Nat → Spectrum α) (n : Nat) (entry : BandEntry) :
    entry ∈ recordedEntries o r n ↔
      bandPeaks o r n entry.1 ≠ [] ∧ entry.2 = bandPeaks o r n entry.1 := by
  rw [recordedEntries, List.mem_filterMap]
  constructor
  · rintro ⟨band, -, hband⟩
    split at hband
    · cases hband
    · cases hband
      exact ⟨by assumption, rfl⟩
  · rintro ⟨hne, heq⟩
    obtain ⟨band, peaks⟩ := entry
    obtain rfl : peaks = bandPeaks o r n band := heq
    exact ⟨band, by cases band <;> decide, if_neg hne⟩

theorem recordedEntries_ascending (o : Overflow) (r : Nat → Spectrum α) (n : Nat) :
    (recordedEntries o r n).Pairwise fun x y => x.1.cmp y.1 = .lt := by
  rw [recordedEntries, List.pairwise_filterMap]
  have hbands : Locality.allBands.Pairwise fun x y => x.cmp y = .lt := by decide
  refine hbands.imp fun {x y} hxy entry hentry entry' hentry' => ?_
  split at hentry
  · cases hentry
  · split at hentry'
    · cases hentry'
    · cases hentry
      cases hentry'
      exact hxy

/-- The bands of a run sorted are the ones that hold anything, each with its landmarks. -/
theorem sortedEntries_record {o : Overflow} {r : Nat → Spectrum α} {n : Nat} {bands : Bands}
    (h : record o r n = some bands) : sortedEntries bands.entries = recordedEntries o r n := by
  have hsorted := BandOrder.sortedEntries_ascending bands
  have hrecorded := recordedEntries_ascending o r n
  have hnodup : ∀ {l : List BandEntry}, l.Pairwise (fun x y => x.1.cmp y.1 = .lt) → l.Nodup := by
    intro l hl
    refine hl.imp fun {x y} hxy heq => ?_
    rw [heq, BandOrder.cmp_eq_lt_iff] at hxy
    exact Nat.lt_irrefl _ hxy
  have hperm : (sortedEntries bands.entries).Perm (recordedEntries o r n) := by
    rw [List.perm_ext_iff_of_nodup (hnodup hsorted) (hnodup hrecorded)]
    intro entry
    obtain ⟨band, peaks⟩ := entry
    rw [mem_sortedEntries, mem_recordedEntries, ← AList.mem_lookup_iff, lookup_record h]
    split
    · rename_i hnil
      simp [hnil]
    · rename_i hne
      simp [hne, eq_comm]
  refine hperm.eq_of_pairwise (fun x y _ _ hxy hyx => ?_) hsorted hrecorded
  rw [BandOrder.cmp_eq_lt_iff] at hxy hyx
  omega

end Buffer

/-- From audio to the record handed to Python: its URI is read back to the rate, the length of
the buffer and, lowest band first, the landmarks of the peaks of all passes searched. -/
theorem uri_of_buffer (o : Overflow) (fft : Vector ℝ 2048 → Vector (ℝ × ℝ) 1025)
    (crc32 : List UInt8 → UInt32) (s : List Int16) (hs : s.length ≤ 2 ^ 30) (now : Nat)
    (hnow : now < 2 ^ 64) :
    ∃ signature json, makeSignatureFromBuffer o fft s = some signature ∧
      getSignatureJson o crc32 standardBase64 (some now) signature = some (.ok json) ∧
      json.timestamp.toNat = now ∧
      readUri json.signature.uri = some (16000, UInt32.ofNat s.length,
        recordedEntries o (fun p => spectrumAt fft s p) (s.length / 128)) := by
  have hpasses : s.length / 128 < 2 ^ 32 := by omega
  obtain ⟨signature, hmake, hencodable, -⟩ := SignatureSize.signature_encodable o fft s hs
  have hrecord := hmake
  rw [makeSignatureFromBuffer_eq o fft s hpasses, Option.map_eq_some_iff] at hrecord
  obtain ⟨bands, hbands, rfl⟩ := hrecord
  obtain ⟨uri, huri, hread, -⟩ := readUri_encodeToUri o crc32 _ hencodable
  refine ⟨_, ⟨⟨durationMs (UInt32.ofNat s.length) sampleRateHz, uri⟩, UInt64.ofNat now,
    "Europe/Paris"⟩, hmake, ?_, ?_, ?_⟩
  · rw [getSignatureJson]
    simp only [if_pos hnow, huri, Option.map_some]
    rfl
  · exact UInt64.toNat_ofNat_of_lt' hnow
  · change readUri uri = _
    rw [hread, setBands_bands, sortedEntries_record hbands]
    rfl

/-- A click and the silence after it, from the samples to the URI. -/
theorem uri_of_click : ∃ signature json,
    makeSignatureFromBuffer .panics Locality.detector (Locality.click 0) = some signature ∧
      getSignatureJson .panics crc32Ieee standardBase64 (some 0) signature = some (.ok json) ∧
      readUri json.signature.uri = some (16000, 5888, recordedEntries .panics
        (fun p => spectrumAt Locality.detector (Locality.click 0) p) 46) := by
  have hlength : (Locality.click 0).length = 5888 := Locality.length_click 0
  obtain ⟨signature, json, hmake, hjson, -, hread⟩ := uri_of_buffer .panics Locality.detector
    crc32Ieee (Locality.click 0) (by rw [hlength]; norm_num) 0 (by norm_num)
  rw [hlength] at hread
  exact ⟨signature, json, hmake, hjson, hread⟩

end DataUri
