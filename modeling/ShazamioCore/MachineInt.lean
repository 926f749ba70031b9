import Mathlib

/-!
# Fixed-width integer operations

An operation whose exact result does not fit its type stops a build that checks for
overflow and wraps in one that does not; `none` is the stop. Casts between widths
wrap, casts from a float saturate.
-/
namespace MachineInt

inductive Overflow where
  | panics
  | wraps
  deriving DecidableEq, Repr

def addU32 (o : Overflow) (a b : UInt32) : Option UInt32 :=
  if a.toNat + b.toNat < 2 ^ 32 ∨ o = .wraps then some (a + b) else none

def subU32 (o : Overflow) (a b : UInt32) : Option UInt32 :=
  if b.toNat ≤ a.toNat ∨ o = .wraps then some (a - b) else none

theorem addU32_fits (o : Overflow) (a b : UInt32) (h : a.toNat + b.toNat < 2 ^ 32) :
    addU32 o a b = some (a + b) :=
  if_pos (Or.inl h)

theorem subU32_fits (o : Overflow) (a b : UInt32) (h : b.toNat ≤ a.toNat) :
    subU32 o a b = some (a - b) :=
  if_pos (Or.inl h)

@[simp] theorem subU32_self (o : Overflow) (a : UInt32) : subU32 o a a = some 0 := by
  simp [subU32]

theorem subU32_eq (o : Overflow) (a b c : UInt32) (h : subU32 o a b = some c) : c = a - b := by
  simp only [subU32, Option.ite_none_right_eq_some, Option.some.injEq] at h
  exact h.2.symm

theorem toNat_sub_fits (a b : UInt32) (h : b.toNat ≤ a.toNat) :
    (a - b).toNat = a.toNat - b.toNat :=
  UInt32.toNat_sub_of_le a b (UInt32.le_iff_toNat_le.mpr h)

def InI32 (x : Int) : Prop := -2 ^ 31 ≤ x ∧ x < 2 ^ 31

instance (x : Int) : Decidable (InI32 x) := by unfold InI32; infer_instance

def addI32 (o : Overflow) (a b : Int) : Option Int :=
  if InI32 (a + b) then some (a + b)
  else if o = .wraps then some ((a + b).bmod (2 ^ 32)) else none

theorem addI32_fits (o : Overflow) (a b : Int) (h : InI32 (a + b)) :
    addI32 o a b = some (a + b) :=
  if_pos h

/-- An unsigned result at a width; one that does not fit is reduced where it wraps. -/
def fitted (o : Overflow) (bits : Nat) (x : Int) : Option Nat :=
  if 0 ≤ x ∧ x < 2 ^ bits then some x.toNat
  else if o = .wraps then some (x % 2 ^ bits).toNat else none

def addUnsigned (o : Overflow) (bits a b : Nat) : Option Nat := fitted o bits (a + b)
def subUnsigned (o : Overflow) (bits a b : Nat) : Option Nat := fitted o bits (a - b)
def mulUnsigned (o : Overflow) (bits a b : Nat) : Option Nat := fitted o bits (a * b)

theorem addUnsigned_fits (o : Overflow) (bits a b : Nat) (h : a + b < 2 ^ bits) :
    addUnsigned o bits a b = some (a + b) :=
  if_pos ⟨by omega, by exact_mod_cast h⟩

theorem subUnsigned_fits (o : Overflow) (bits a b : Nat) (h : b ≤ a) (ha : a < 2 ^ bits) :
    subUnsigned o bits a b = some (a - b) := by
  have hsub : ((a : Int) - b) = (a - b : Nat) := by omega
  rw [subUnsigned, hsub]
  exact if_pos ⟨by omega, by exact_mod_cast Nat.lt_of_le_of_lt (Nat.sub_le a b) ha⟩

theorem mulUnsigned_fits (o : Overflow) (bits a b : Nat) (h : a * b < 2 ^ bits) :
    mulUnsigned o bits a b = some (a * b) := by
  rw [mulUnsigned, ← Int.natCast_mul]
  exact if_pos ⟨by omega, by exact_mod_cast h⟩

def andI32 (x : Int) (mask : Nat) : Nat := (BitVec.ofInt 32 x &&& BitVec.ofNat 32 mask).toNat

theorem andI32_le (x : Int) (mask : Nat) (h : mask < 2 ^ 32) : andI32 x mask ≤ mask := by
  rw [andI32, BitVec.toNat_and, BitVec.toNat_ofNat, Nat.mod_eq_of_lt h]
  exact Nat.and_le_right

/-- A mask of low bits is a residue, for negative numbers too. -/
theorem andI32_mask (x : Int) (k : Nat) (hk : k ≤ 32) :
    andI32 x (2 ^ k - 1) = (x % 2 ^ k).toNat := by
  have hpow : 2 ^ k ≤ 2 ^ 32 := Nat.pow_le_pow_right (by decide) hk
  have hpos : 0 < 2 ^ k := Nat.two_pow_pos k
  have hdvd : ((2 ^ k : Nat) : Int) ∣ ((2 ^ 32 : Nat) : Int) :=
    Int.natCast_dvd_natCast.mpr (Nat.pow_dvd_pow 2 hk)
  have hmask : (2 ^ k - 1) % 2 ^ 32 = 2 ^ k - 1 := Nat.mod_eq_of_lt (by omega)
  have hnn := Int.emod_nonneg x (show ((2 ^ 32 : Nat) : Int) ≠ 0 by decide)
  have hres : 0 ≤ x % ((2 ^ k : Nat) : Int) := Int.emod_nonneg x (by omega)
  rw [andI32, BitVec.toNat_and, BitVec.toNat_ofInt, BitVec.toNat_ofNat, hmask,
    Nat.and_two_pow_sub_one_eq_mod]
  apply Int.ofNat.inj
  simp only [Int.ofNat_eq_natCast, Int.natCast_emod, Int.toNat_of_nonneg hnn,
    Int.emod_emod_of_dvd x hdvd]
  push_cast at hres ⊢
  rw [Int.toNat_of_nonneg hres]

/-- An `i32` as an index: a negative one lies past every array. -/
def asUsize (x : Int) : Nat := (x % 2 ^ 64).toNat

theorem asUsize_of_nonneg (x : Int) (h : 0 ≤ x) (h' : x < 2 ^ 64) : asUsize x = x.toNat := by
  rw [asUsize, Int.emod_eq_of_lt h h']

def wrapU16 (x : Int) : UInt16 := UInt16.ofNat (x % 2 ^ 16).toNat

theorem toNat_wrapU16 (x : Int) (h : 0 ≤ x) (h' : x < 2 ^ 16) : (wrapU16 x).toNat = x.toNat := by
  have hm : x % 2 ^ 16 = x := Int.emod_eq_of_lt h h'
  have hx : x.toNat < 2 ^ 16 := by omega
  rw [wrapU16, hm, UInt16.toNat_ofNat']
  exact Nat.mod_eq_of_lt hx

def saturate (lo hi x : Int) : Int := max lo (min hi x)

def saturateI32 (x : Int) : Int := saturate (-2 ^ 31) (2 ^ 31 - 1) x
def saturateI16 (x : Int) : Int := saturate (-2 ^ 15) (2 ^ 15 - 1) x
def saturateU16 (x : Int) : UInt16 := UInt16.ofNat (saturate 0 (2 ^ 16 - 1) x).toNat
def saturateU32 (x : Int) : UInt32 := UInt32.ofNat (saturate 0 (2 ^ 32 - 1) x).toNat

def saturateUsize (x : Int) : Nat := (saturate 0 (2 ^ 64 - 1) x).toNat

theorem saturate_of_mem (lo hi x : Int) (h : lo ≤ x) (h' : x ≤ hi) : saturate lo hi x = x := by
  rw [saturate, min_eq_right h', max_eq_right h]

theorem saturateI32_of_mem (x : Int) (h : InI32 x) : saturateI32 x = x := by
  obtain ⟨hlo, hhi⟩ := h
  exact saturate_of_mem _ _ x hlo (by omega)

theorem toNat_saturateU32 (x : Int) (h : 0 ≤ x) :
    (saturateU32 x).toNat = min x.toNat (2 ^ 32 - 1) := by
  rw [saturateU32, UInt32.toNat_ofNat_of_lt', saturate]
  · omega
  · rw [saturate, show UInt32.size = 2 ^ 32 from rfl]
    omega

theorem saturateUsize_pos (x : Int) (h : 0 < x) : 0 < saturateUsize x := by
  rw [saturateUsize, saturate]
  omega

end MachineInt
