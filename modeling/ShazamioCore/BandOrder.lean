import Mathlib
import ShazamioCore.SignatureFraming

/-!
# The order of the bands

A hash map hands back its entries in an order of its own. The comparison of bands is a
strict total order on the keys, so sorting leaves one list whatever the map's order was,
and the encoder reads nothing of the map but that list.
-/
namespace BandOrder

open ByteCursor MachineInt SignatureFormat SignatureLayout SignatureFraming

theorem discriminant_injective (x y : FrequencyBand) (h : x.discriminant = y.discriminant) :
    x = y := by
  cases x <;> cases y <;> first | rfl | exact absurd h (by decide)

theorem cmp_eq_lt_iff (x y : FrequencyBand) :
    x.cmp y = .lt ↔ x.discriminant < y.discriminant := by
  rw [FrequencyBand.cmp, compare_lt_iff_lt, Int.ofNat_lt]

theorem cmp_ne_gt_iff (x y : FrequencyBand) :
    x.cmp y ≠ .gt ↔ x.discriminant ≤ y.discriminant := by
  rw [FrequencyBand.cmp, Ne, compare_gt_iff_gt, not_lt, Int.ofNat_le]

/-- The two hand-written comparisons agree. -/
theorem partialCmp_eq (x y : FrequencyBand) : x.partialCmp y = some (x.cmp y) := rfl

instance : Std.Total fun x y : BandEntry => x.1.cmp y.1 ≠ .gt where
  total x y := by
    rw [cmp_ne_gt_iff, cmp_ne_gt_iff]
    exact Nat.le_total _ _

instance : IsTrans BandEntry fun x y => x.1.cmp y.1 ≠ .gt where
  trans x y z hxy hyz := by
    rw [cmp_ne_gt_iff] at hxy hyz ⊢
    exact Nat.le_trans hxy hyz

theorem sortedEntries_sorted (entries : List BandEntry) :
    (sortedEntries entries).Pairwise fun x y => x.1.cmp y.1 ≠ .gt :=
  List.pairwise_insertionSort _ entries

/-- No key twice makes the order strict. -/
theorem sortedEntries_ascending (bands : AList fun _ : FrequencyBand => List FrequencyPeak) :
    (sortedEntries bands.entries).Pairwise fun x y => x.1.cmp y.1 = .lt := by
  have hkeys : (sortedEntries bands.entries).NodupKeys :=
    (List.perm_nodupKeys (sortedEntries_perm bands.entries)).mpr bands.nodupKeys
  have hdistinct : (sortedEntries bands.entries).Pairwise fun x y => x.1 ≠ y.1 :=
    List.nodupKeys_iff_pairwise.mp hkeys
  apply List.Pairwise.imp₂ ?_ (sortedEntries_sorted bands.entries) hdistinct
  intro x y hle hne
  rw [cmp_ne_gt_iff] at hle
  rw [cmp_eq_lt_iff]
  have hdisc : x.1.discriminant ≠ y.1.discriminant := fun h => hne (discriminant_injective _ _ h)
  omega

/-- A sorted band map is known by its entries alone. -/
theorem sortedEntries_eq_of_perm (bands bands' : AList fun _ : FrequencyBand => List FrequencyPeak)
    (h : bands.entries.Perm bands'.entries) :
    sortedEntries bands.entries = sortedEntries bands'.entries := by
  have hperm : (sortedEntries bands.entries).Perm (sortedEntries bands'.entries) :=
    (sortedEntries_perm _).trans (h.trans (sortedEntries_perm _).symm)
  apply List.Perm.eq_of_pairwise ?_ (sortedEntries_ascending bands)
    (sortedEntries_ascending bands') hperm
  intro x y _ _ hxy hyx
  rw [cmp_eq_lt_iff] at hxy hyx
  omega

/-- Each key of the map has one section, and no other band has any. -/
theorem count_sortedEntries (bands : AList fun _ : FrequencyBand => List FrequencyPeak)
    (band : FrequencyBand) :
    ((sortedEntries bands.entries).map Sigma.fst).count band = if band ∈ bands then 1 else 0 := by
  have hperm : ((sortedEntries bands.entries).map Sigma.fst).Perm bands.keys :=
    (sortedEntries_perm bands.entries).map Sigma.fst
  rw [hperm.count_eq]
  have hnodup : bands.keys.Nodup := bands.nodupKeys
  split
  · rename_i hmem
    exact List.count_eq_one_of_mem hnodup hmem
  · rename_i hmem
    exact List.count_eq_zero_of_not_mem hmem

/-- The sections begin where the header ends. -/
theorem image_drop_header (crc headerSize bodySize rateId numberSamplesPlus : UInt32)
    (sections : List UInt8) :
    (image crc headerSize bodySize rateId numberSamplesPlus sections).drop firstBandOffset =
      sections := by
  have hlen : (le32 0xcafe2580 ++ (le32 crc ++ (le32 headerSize ++
      headerFields rateId numberSamplesPlus)) ++ le32 bodySize).length = firstBandOffset := by
    simp [firstBandOffset]
  rw [image_split_bodySize, ← List.append_assoc, ← hlen, List.drop_left]

/-- Two maps with the same entries encode to the same bytes, or the same band stops both;
and the sections stand in strictly ascending order, one for each key of the map. -/
theorem encodeToBinary_perm (o : Overflow) (crc32 : List UInt8 → UInt32) (s : DecodedSignature)
    (bands : AList fun _ : FrequencyBand => List FrequencyPeak)
    (h : bands.entries.Perm s.frequencyBandToSoundPeaks.entries) :
    encodeToBinary o crc32 { s with frequencyBandToSoundPeaks := bands } =
        encodeToBinary o crc32 s ∧
      sortedEntries bands.entries = sortedEntries s.frequencyBandToSoundPeaks.entries ∧
      ∀ bytes, encodeToBinary o crc32 s = some bytes →
        ∃ entries : List BandEntry,
          bytes.drop firstBandOffset = entries.flatMap sectionBytes ∧
          entries.Pairwise (fun x y => x.1.cmp y.1 = .lt) ∧
          entries.Perm s.frequencyBandToSoundPeaks.entries ∧
          (∀ band, (entries.map Sigma.fst).count band =
            if band ∈ s.frequencyBandToSoundPeaks then 1 else 0) ∧
          (bytes.length < 2 ^ 32 →
            bandMarkers bytes = some (entries.map fun entry => bandMarker entry.1)) := by
  have hsorted := sortedEntries_eq_of_perm _ _ h
  refine ⟨?_, hsorted, ?_⟩
  · simp only [encodeToBinary, appendAll, hsorted]
  · intro bytes hbytes
    obtain ⟨rateId, plus, size, _, _, _, _, rfl⟩ := (encodeToBinary_eq_some _ _ _ _).mp hbytes
    refine ⟨sortedEntries s.frequencyBandToSoundPeaks.entries, image_drop_header _ _ _ _ _ _,
      sortedEntries_ascending _, sortedEntries_perm _, count_sortedEntries _, ?_⟩
    intro hlen
    rw [image_length] at hlen
    rw [bandMarkers, body, image_walk _ _ _ _ _ _ hlen]
    simp [sectionOf, Function.comp_def]

/-- The bands of the escaped signature, lowest first. -/
theorem escapedSignature_reordered :
    encodeToBinary .panics crc32Ieee { escapedSignature with
        frequencyBandToSoundPeaks :=
          ⟨[⟨._250_520, []⟩, ⟨._520_1450, [⟨0, 1, 2⟩, ⟨300, 3, 4⟩]⟩], by
            simp [List.NodupKeys, List.keys]⟩ } =
      encodeToBinary .panics crc32Ieee escapedSignature :=
  (encodeToBinary_perm .panics crc32Ieee escapedSignature _ (List.Perm.swap _ _ [])).1

end BandOrder
