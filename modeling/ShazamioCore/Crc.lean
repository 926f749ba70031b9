import Mathlib

/-!
# Cyclic redundancy checks

A register of any width is shifted once for each bit of a message, and takes the generator in
where a one falls out. Shifting is linear, and loses nothing where the generator has its highest
bit. So a message damaged in no more bytes in a row than the register holds leaves another
register behind, whatever comes before and after the damage.
-/
namespace Crc

variable {w : Nat} (generator : BitVec w)

/-- One shift, low bit first. -/
def shift (c : BitVec w) : BitVec w :=
  if c.getLsbD 0 then (c >>> 1) ^^^ generator else c >>> 1

def shifts : Nat → BitVec w → BitVec w
  | 0, c => c
  | n + 1, c => shifts n (shift generator c)

/-- A byte goes into the low bits of the register and is shifted through it. -/
def feedByte (c : BitVec w) (byte : UInt8) : BitVec w :=
  shifts generator 8 (c ^^^ byte.toBitVec.setWidth w)

def feed (c : BitVec w) (bytes : List UInt8) : BitVec w := bytes.foldl (feedByte generator) c

section Linear

theorem shift_xor (c d : BitVec w) :
    shift generator (c ^^^ d) = shift generator c ^^^ shift generator d := by
  apply BitVec.eq_of_getLsbD_eq
  intro i hi
  simp only [shift, BitVec.getLsbD_xor]
  cases c.getLsbD 0 <;> cases d.getLsbD 0 <;>
    simp [BitVec.getLsbD_xor, Bool.xor_comm, Bool.xor_left_comm]

theorem shifts_xor (n : Nat) (c d : BitVec w) :
    shifts generator n (c ^^^ d) = shifts generator n c ^^^ shifts generator n d := by
  induction n generalizing c d with
  | zero => rfl
  | succ n ih => rw [shifts, shifts, shifts, shift_xor, ih]

theorem feedByte_xor (c d : BitVec w) (a b : UInt8) :
    feedByte generator (c ^^^ d) (a ^^^ b) = feedByte generator c a ^^^ feedByte generator d b := by
  have hbytes : (a ^^^ b).toBitVec.setWidth w =
      a.toBitVec.setWidth w ^^^ b.toBitVec.setWidth w := by
    rw [UInt8.toBitVec_xor, BitVec.setWidth_xor]
  rw [feedByte, feedByte, feedByte, ← shifts_xor, hbytes]
  congr 1
  ac_rfl

/-- The registers of two messages differ by that of their difference. -/
theorem feed_xor (c d : BitVec w) (as bs : List UInt8) (h : as.length = bs.length) :
    feed generator (c ^^^ d) (List.zipWith (· ^^^ ·) as bs) =
      feed generator c as ^^^ feed generator d bs := by
  induction as generalizing c d bs with
  | nil =>
    obtain rfl := List.length_eq_zero_iff.mp h.symm
    rfl
  | cons a as ih =>
    cases bs with
    | nil => cases h
    | cons b bs =>
      simp only [feed, List.zipWith_cons_cons, List.foldl_cons, feedByte_xor]
      exact ih _ _ bs (Nat.succ.inj h)

theorem feed_append (c : BitVec w) (as bs : List UInt8) :
    feed generator c (as ++ bs) = feed generator (feed generator c as) bs := List.foldl_append

end Linear

section Invertible

variable {generator} (hhigh : generator.getLsbD (w - 1) = true)

include hhigh

theorem width_pos : 0 < w := by
  by_contra hzero
  obtain rfl : w = 0 := by omega
  simp at hhigh

/-- A register that comes out without its highest bit was shifted and nothing else. -/
theorem shift_low {c : BitVec w} (h : (shift generator c).toNat < 2 ^ (w - 1)) :
    c.toNat = 2 * (shift generator c).toNat := by
  have hw := width_pos hhigh
  have hclear : (shift generator c).getLsbD (w - 1) = false := Nat.testBit_lt_two_pow h
  cases hlow : c.getLsbD 0 with
  | true =>
    have hset : (shift generator c).getLsbD (w - 1) = true := by
      rw [shift, if_pos hlow, BitVec.getLsbD_xor, BitVec.getLsbD_ushiftRight, hhigh,
        BitVec.getLsbD_of_ge c _ (by omega)]
      rfl
    rw [hset] at hclear
    cases hclear
  | false =>
    have heven : c.toNat % 2 = 0 := by
      have hbit : c.toNat.testBit 0 = false := hlow
      simpa using hbit
    have hshift : (shift generator c).toNat = c.toNat / 2 := by
      rw [shift, hlow, if_neg (by decide), BitVec.toNat_ushiftRight, Nat.shiftRight_one]
    omega

theorem shifts_low {n k : Nat} {c : BitVec w} (hk : n + k ≤ w)
    (h : (shifts generator n c).toNat < 2 ^ k) :
    c.toNat = 2 ^ n * (shifts generator n c).toNat := by
  induction n generalizing c with
  | zero => rw [shifts, pow_zero, one_mul]
  | succ n ih =>
    rw [shifts] at h ⊢
    have hrest := ih (by omega) h
    have hbound : (shift generator c).toNat < 2 ^ (w - 1) := by
      calc (shift generator c).toNat < 2 ^ n * 2 ^ k := by
            rw [hrest]
            exact Nat.mul_lt_mul_of_pos_left h (by positivity)
        _ = 2 ^ (n + k) := (pow_add 2 n k).symm
        _ ≤ 2 ^ (w - 1) := Nat.pow_le_pow_right (by decide) (by omega)
    rw [shift_low hhigh hbound, hrest, pow_succ]
    ring

theorem shifts_eq_zero {n : Nat} {c : BitVec w} (hn : n ≤ w) (h : shifts generator n c = 0) :
    c = 0 := by
  have hlow := shifts_low hhigh (k := 0) (c := c) (by omega) (by rw [h]; simp)
  apply BitVec.eq_of_toNat_eq
  rw [hlow, h]
  simp

/-- Registers that take one byte to one register were one. -/
theorem feedByte_injective (hw : 8 ≤ w) {c d : BitVec w} {byte : UInt8}
    (h : feedByte generator c byte = feedByte generator d byte) : c = d := by
  have hxor : shifts generator 8 (c ^^^ d) = 0 := by
    have hsame := feedByte_xor generator c d byte byte
    rw [h, BitVec.xor_self, UInt8.xor_self] at hsame
    simpa [feedByte] using hsame
  exact BitVec.xor_eq_zero_iff.mp (shifts_eq_zero hhigh hw hxor)

theorem feed_injective (hw : 8 ≤ w) {c d : BitVec w} (bytes : List UInt8)
    (h : feed generator c bytes = feed generator d bytes) : c = d := by
  induction bytes generalizing c d with
  | nil => exact h
  | cons byte bytes ih => exact feedByte_injective hhigh hw (ih h)

/-- Bytes that leave the register empty and fit it were in it from the start. -/
theorem feed_eq_zero (bytes : List UInt8) {c : BitVec w} (hlength : 8 * bytes.length ≤ w)
    (h : feed generator c bytes = 0) :
    c.toNat < 2 ^ (8 * bytes.length) ∧ (c = 0 → ∀ byte ∈ bytes, byte = 0) := by
  induction bytes generalizing c with
  | nil =>
    obtain rfl : c = 0 := h
    exact ⟨by simp, fun _ _ hmem => absurd hmem List.not_mem_nil⟩
  | cons byte bytes ih =>
    rw [List.length_cons] at hlength
    obtain ⟨hsmall, hrest⟩ := ih (c := feedByte generator c byte) (by omega) h
    have hbyte : (byte.toBitVec.setWidth w).toNat = byte.toNat := by
      have hlt := byte.toNat_lt
      have hpow : (2 : Nat) ^ 8 ≤ 2 ^ w := Nat.pow_le_pow_right (by decide) (by omega)
      rw [BitVec.toNat_setWidth, UInt8.toNat_toBitVec, Nat.mod_eq_of_lt (by omega)]
    have hentered : (c ^^^ byte.toBitVec.setWidth w).toNat =
        2 ^ 8 * (feedByte generator c byte).toNat :=
      shifts_low hhigh (by omega) hsmall
    constructor
    · have hpow : 2 ^ 8 * 2 ^ (8 * bytes.length) = 2 ^ (8 * (bytes.length + 1)) := by
        rw [← pow_add]
        congr 1
        omega
      have hbound : (c ^^^ byte.toBitVec.setWidth w).toNat < 2 ^ (8 * (bytes.length + 1)) := by
        rw [hentered, ← hpow]
        exact Nat.mul_lt_mul_of_pos_left hsmall (by positivity)
      have hbyteBound : (byte.toBitVec.setWidth w).toNat < 2 ^ (8 * (bytes.length + 1)) := by
        rw [hbyte, ← hpow]
        have hlt := byte.toNat_lt
        have hone : 1 ≤ 2 ^ (8 * bytes.length) := Nat.one_le_two_pow
        omega
      have hback : c = (c ^^^ byte.toBitVec.setWidth w) ^^^ byte.toBitVec.setWidth w := by
        rw [BitVec.xor_assoc, BitVec.xor_self, BitVec.xor_zero]
      rw [hback, BitVec.toNat_xor]
      exact Nat.xor_lt_two_pow hbound hbyteBound
    · rintro rfl
      have hempty : (0 : BitVec w) ^^^ byte.toBitVec.setWidth w = byte.toBitVec.setWidth w :=
        BitVec.zero_xor
      rw [hempty, hbyte] at hentered
      have hlt := byte.toNat_lt
      have hnone : (feedByte generator 0 byte).toNat = 0 := by omega
      have hzero : byte = 0 := by
        rw [← UInt8.toNat_inj, hentered, hnone]
        rfl
      rw [List.forall_mem_cons]
      exact ⟨hzero, hrest (BitVec.eq_of_toNat_eq (by simpa using hnone))⟩

end Invertible

theorem zipWith_xor_eq_zero (as bs : List UInt8) (h : as.length = bs.length)
    (hzero : ∀ byte ∈ List.zipWith (· ^^^ ·) as bs, byte = 0) : as = bs := by
  induction as generalizing bs with
  | nil => exact (List.length_eq_zero_iff.mp h.symm).symm
  | cons a as ih =>
    cases bs with
    | nil => cases h
    | cons b bs =>
      rw [List.zipWith_cons_cons, List.forall_mem_cons, UInt8.xor_eq_zero_iff] at hzero
      rw [hzero.1, ih bs (Nat.succ.inj h) hzero.2]

/-- Damage to no more bytes in a row than the register holds is detected. -/
theorem burst_detected {generator : BitVec w} (hhigh : generator.getLsbD (w - 1) = true)
    (hw : 8 ≤ w) (c : BitVec w) (front burst burst' back : List UInt8)
    (hlength : burst.length = burst'.length) (hfits : 8 * burst.length ≤ w)
    (h : feed generator c (front ++ (burst ++ back)) =
      feed generator c (front ++ (burst' ++ back))) :
    burst = burst' := by
  rw [feed_append, feed_append, feed_append, feed_append] at h
  have hsame := feed_injective hhigh hw back h
  have hxor := feed_xor generator (feed generator c front) (feed generator c front) burst burst'
    hlength
  rw [hsame, BitVec.xor_self, BitVec.xor_self] at hxor
  have hcombined : 8 * (List.zipWith (· ^^^ ·) burst burst').length ≤ w := by
    rw [List.length_zipWith]
    omega
  exact zipWith_xor_eq_zero burst burst' hlength ((feed_eq_zero hhigh _ hcombined hxor).2 rfl)

end Crc
