import Mathlib
import ShazamioCore.Crc
import ShazamioCore.SignatureFraming

/-!
# Damage to a signature

The checksum of the header covers every byte after it. A reader that compares it, and the magic
before it, takes what the encoder writes and refuses it after any damage to four bytes in a row,
on either side of the checksum's end.
-/
namespace SignatureDamage

open MachineInt ByteCursor SignatureFormat SignatureLayout SignatureFraming Crc

/-- The generator of the IEEE checksum, low bit first. -/
def ieee : BitVec 32 := 0xedb88320

theorem toBitVec_rounds (n : Nat) (c : UInt32) :
    ((List.range n).foldl (fun (c : UInt32) _ =>
        if c % 2 = 1 then (c >>> 1) ^^^ 0xedb88320 else c >>> 1) c).toBitVec =
      shifts ieee n c.toBitVec := by
  induction n generalizing c with
  | zero => rfl
  | succ n ih =>
    have hlow : c % 2 = 1 ↔ c.toBitVec.getLsbD 0 = true := by
      have hmod : (c % 2).toNat = c.toNat % 2 := UInt32.toNat_mod c 2
      have hbit : c.toBitVec.getLsbD 0 = decide (c.toNat % 2 = 1) := by
        rw [BitVec.getLsbD, UInt32.toNat_toBitVec, Nat.testBit_zero]
      rw [hbit, decide_eq_true_iff, ← hmod, ← UInt32.toNat_inj]
      rfl
    rw [List.range_succ_eq_map, List.foldl_cons, List.foldl_map, ih, shifts, shift]
    congr 1
    by_cases hc : c % 2 = 1
    · rw [if_pos hc, if_pos (hlow.mp hc)]
      rfl
    · rw [if_neg hc, if_neg (hlow.not.mp hc)]
      rfl

theorem toBitVec_crcByte (crc : UInt32) (byte : UInt8) :
    (crcByte crc byte).toBitVec = feedByte ieee crc.toBitVec byte := by
  rw [crcByte, toBitVec_rounds, feedByte]
  rfl

theorem toBitVec_crc32Ieee (bytes : List UInt8) :
    (crc32Ieee bytes).toBitVec = feed ieee 0xffffffff bytes ^^^ 0xffffffff := by
  have hfold : ∀ crc : UInt32,
      (bytes.foldl crcByte crc).toBitVec = feed ieee crc.toBitVec bytes := by
    induction bytes with
    | nil => exact fun _ => rfl
    | cons byte bytes ih =>
      intro crc
      rw [List.foldl_cons, ih, toBitVec_crcByte]
      rfl
  rw [crc32Ieee, UInt32.toBitVec_xor, hfold]
  rfl

/-- Two messages of one checksum leave one register. -/
theorem feed_eq_of_crc32Ieee {as bs : List UInt8} (h : crc32Ieee as = crc32Ieee bs) :
    feed ieee 0xffffffff as = feed ieee 0xffffffff bs := by
  have hbits := congrArg UInt32.toBitVec h
  rw [toBitVec_crc32Ieee, toBitVec_crc32Ieee] at hbits
  exact (BitVec.xor_left_inj _).mp hbits

/-- What a reader checks: the first magic, and the checksum of all that comes after it. -/
def Intact (bytes : List UInt8) : Prop :=
  readU32 bytes 0 = some 0xcafe2580 ∧ readU32 bytes 4 = some (crc32Ieee (bytes.drop 8))

instance (bytes : List UInt8) : Decidable (Intact bytes) :=
  inferInstanceAs (Decidable (_ ∧ _))

theorem readU32_first (after : List UInt8) (x : UInt32) :
    readU32 (le32 x ++ after) 0 = some x := by
  have hread := readU32_append [] after x
  rwa [List.nil_append, List.length_nil] at hread

/-- What the encoder writes is intact. -/
theorem encodeToBinary_intact {o : Overflow} {s : DecodedSignature} {bytes : List UInt8}
    (h : encodeToBinary o crc32Ieee s = some bytes) : Intact bytes := by
  obtain ⟨rateId, plus, size, -, -, -, -, rfl⟩ := (encodeToBinary_eq_some o crc32Ieee s bytes).mp h
  constructor
  · rw [image, readU32_first]
  · rw [readU32_crc, image_drop]

section Fields

theorem leValue_lt (bytes : List UInt8) : leValue bytes < 256 ^ bytes.length := by
  induction bytes with
  | nil => exact Nat.one_pos
  | cons byte bytes ih =>
    have hlt := byte.toNat_lt
    rw [leValue, List.length_cons, Nat.pow_succ]
    omega

theorem leValue_injective (as bs : List UInt8) (hlength : as.length = bs.length)
    (h : leValue as = leValue bs) : as = bs := by
  induction as generalizing bs with
  | nil => exact (List.length_eq_zero_iff.mp hlength.symm).symm
  | cons a as ih =>
    cases bs with
    | nil => cases hlength
    | cons b bs =>
      have ha := a.toNat_lt
      have hb := b.toNat_lt
      rw [leValue, leValue] at h
      have hfirst : a = b := UInt8.toNat_inj.mp (by omega)
      rw [hfirst, ih bs (Nat.succ.inj hlength) (by omega)]

/-- A field read twice alike holds the same bytes. -/
theorem field_eq {as bs : List UInt8} {offset : Nat} {x : UInt32}
    (ha : readU32 as offset = some x) (hb : readU32 bs offset = some x) :
    (as.drop offset).take 4 = (bs.drop offset).take 4 := by
  have hread : ∀ {cs : List UInt8}, readU32 cs offset = some x →
      ((cs.drop offset).take 4).length = 4 ∧ leValue ((cs.drop offset).take 4) = x.toNat := by
    intro cs hc
    rw [readU32] at hc
    split at hc
    · rename_i hfit
      have hlength : ((cs.drop offset).take 4).length = 4 := by
        rw [List.length_take, List.length_drop]
        omega
      have hlt := leValue_lt ((cs.drop offset).take 4)
      rw [hlength] at hlt
      refine ⟨hlength, ?_⟩
      rw [← Option.some.inj hc, UInt32.toNat_ofNat_of_lt' hlt]
    · cases hc
  obtain ⟨hlengthA, hvalueA⟩ := hread ha
  obtain ⟨hlengthB, hvalueB⟩ := hread hb
  exact leValue_injective _ _ (hlengthA.trans hlengthB.symm) (hvalueA.trans hvalueB.symm)

/-- Two buffers agree on a stretch of bytes where they agree on each of them. -/
theorem stretch_eq {as bs : List UInt8} (offset count : Nat)
    (h : ∀ i, offset ≤ i → i < offset + count → as[i]? = bs[i]?) :
    (as.drop offset).take count = (bs.drop offset).take count := by
  apply List.ext_getElem?
  intro i
  rw [List.getElem?_take, List.getElem?_take]
  split
  · rename_i hi
    rw [List.getElem?_drop, List.getElem?_drop, h _ (by omega) (by omega)]
  · rfl

theorem rest_eq {as bs : List UInt8} (offset : Nat) (h : ∀ i, offset ≤ i → as[i]? = bs[i]?) :
    as.drop offset = bs.drop offset := by
  apply List.ext_getElem?
  intro i
  rw [List.getElem?_drop, List.getElem?_drop, h _ (by omega)]

theorem split_at (bytes : List UInt8) (offset count : Nat) :
    bytes.drop offset = (bytes.drop offset).take count ++ bytes.drop (offset + count) := by
  rw [← List.drop_drop, List.take_append_drop]

end Fields

section Unique

variable {as bs : List UInt8} (ha : Intact as) (hb : Intact bs) (hlength : as.length = bs.length)

include ha hb

/-- Within the magic and the checksum nothing can differ. -/
theorem eq_of_header (hrest : as.drop 8 = bs.drop 8) : as = bs := by
  have hmagic := field_eq ha.1 hb.1
  have hcrc := field_eq ha.2 (hrest ▸ hb.2)
  have hwhole : ∀ bytes : List UInt8, bytes =
      (bytes.drop 0).take 4 ++ ((bytes.drop 4).take 4 ++ bytes.drop 8) := by
    intro bytes
    rw [← split_at bytes 4 4, ← split_at bytes 0 4, List.drop_zero]
  rw [hwhole as, hwhole bs, hmagic, hcrc, hrest]

include hlength

/-- After the checksum no four bytes in a row can differ. -/
theorem eq_of_burst (start : Nat) (hstart : 8 ≤ start)
    (h : ∀ i, ¬(start ≤ i ∧ i < start + 4) → as[i]? = bs[i]?) : as = bs := by
  have hfront := stretch_eq 8 (start - 8) fun i _ _ => h i (by omega)
  have hback := rest_eq (start + 4) fun i _ => h i (by omega)
  have hfield := stretch_eq 4 4 fun i _ _ => h i (by omega)
  have hsplit : ∀ bytes : List UInt8, bytes.drop 8 = (bytes.drop 8).take (start - 8) ++
      ((bytes.drop start).take 4 ++ bytes.drop (start + 4)) := by
    intro bytes
    rw [← split_at bytes start 4]
    have hjoin := split_at bytes 8 (start - 8)
    rwa [show 8 + (start - 8) = start by omega] at hjoin
  have hcrc : crc32Ieee (as.drop 8) = crc32Ieee (bs.drop 8) := by
    have hread : readU32 as 4 = readU32 bs 4 := by
      rw [readU32, readU32, hfield, hlength]
    rw [ha.2, hb.2] at hread
    exact Option.some.inj hread
  have hfeed := feed_eq_of_crc32Ieee hcrc
  rw [hsplit as, hsplit bs, hfront, hback] at hfeed
  have hburst : (as.drop start).take 4 = (bs.drop start).take 4 := by
    have hcount : ((as.drop start).take 4).length = ((bs.drop start).take 4).length := by
      simp only [List.length_take, List.length_drop, hlength]
    have hhigh : ieee.getLsbD (32 - 1) = true := by decide
    refine burst_detected hhigh (by decide) _ _ _ _ _ hcount ?_ hfeed
    rw [List.length_take]
    omega
  apply eq_of_header ha hb
  rw [hsplit as, hsplit bs, hfront, hback, hburst]

end Unique

/-- What the encoder writes is intact, and no longer so when up to four bytes in a row change
that do not lie across the end of the checksum, wherever they are and whatever they become. -/
theorem damage_detected (o : Overflow) (s : DecodedSignature) (bytes : List UInt8)
    (h : encodeToBinary o crc32Ieee s = some bytes) :
    Intact bytes ∧ ∀ start damaged, start + 4 ≤ 8 ∨ 8 ≤ start →
      damaged.length = bytes.length →
      (∀ i, ¬(start ≤ i ∧ i < start + 4) → damaged[i]? = bytes[i]?) →
      damaged ≠ bytes → ¬Intact damaged := by
  have hintact := encodeToBinary_intact h
  refine ⟨hintact, fun start damaged hside hlength houtside hne hdamaged => hne ?_⟩
  rcases hside with hbefore | hafter
  · exact eq_of_header hdamaged hintact (rest_eq 8 fun i _ => houtside i (by omega))
  · exact eq_of_burst hdamaged hintact hlength start hafter houtside

theorem escapedSignature_damaged : ∃ bytes,
    encodeToBinary .panics crc32Ieee escapedSignature = some bytes ∧ Intact bytes ∧
      ¬Intact (bytes.set 60 7) := by
  have hsome : (encodeToBinary .panics crc32Ieee escapedSignature).isSome := by decide +kernel
  obtain ⟨bytes, h⟩ := Option.isSome_iff_exists.mp hsome
  have hchanges : (encodeToBinary .panics crc32Ieee escapedSignature).all
      fun bytes => bytes[60]? != some 7 && decide (60 < bytes.length) := by decide +kernel
  rw [h, Option.all_some, Bool.and_eq_true, bne_iff_ne, decide_eq_true_iff] at hchanges
  obtain ⟨hbyte, hlength⟩ := hchanges
  obtain ⟨hintact, hdamaged⟩ := damage_detected .panics escapedSignature bytes h
  refine ⟨bytes, h, hintact, hdamaged 60 _ (.inr (by decide)) List.length_set ?_ ?_⟩
  · intro i hi
    rw [List.getElem?_set_ne (by omega)]
  · intro hsame
    rw [← hsame, List.getElem?_set_self hlength] at hbyte
    exact hbyte rfl

end SignatureDamage
