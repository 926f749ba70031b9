import Mathlib
import ShazamioCore.MachineInt

/-!
# Single-precision arithmetic

`F32` names the `f32` operations a program applies to values of a linear order that
holds no NaN. Nothing is asked of the arithmetic but the order of three literals, so
a result about every instance holds of the hardware's rounding too. An ordered field
with a floor and a logarithm is the instance in which the arithmetic is exact.
`binary32` is the rounding of an exact result to a 24-bit significand.
-/

/-- Rounded literals, conversions and arithmetic on the values of a linear order. -/
class F32 (α : Type) [LinearOrder α] where
  lit : Rat → α
  ofInt : Int → α
  add : α → α → α
  sub : α → α → α
  mul : α → α → α
  div : α → α → α
  ln : α → α
  /-- The integer part, toward zero. -/
  trunc : α → Int
  /-- The integer part of a quotient: `0 / 0` is NaN, whose cast is zero, and any other
  quotient by zero is past every integer type. -/
  truncDiv : α → α → Int
  zero_lt_floor : lit 0 < lit (1 / 10 ^ 10)
  floor_lt_peak : lit (1 / 10 ^ 10) < lit (1 / 64)
  /-- The product has at most 23 significant bits, so nothing is rounded. -/
  trunc_scaled : ∀ n : Nat, n < 2 ^ 16 →
    trunc (mul (ofInt n) (lit (16000 / 2 / 1024 / 64))) = (n * 125 / 1024 : Nat)

/-- A logarithm, where the arithmetic around it is exact. -/
class Ln (α : Type) where
  ln : α → α

noncomputable instance : Ln ℝ := ⟨Real.log⟩

/-- A power, where a program takes one. -/
class Powf (α : Type) where
  powf : α → α → α

noncomputable instance : Powf ℝ := ⟨fun x y => x ^ y⟩

/-- The `f64` operations on the values of a linear order that holds no NaN. -/
class F64 (β : Type) [LinearOrder β] where
  ofNat : Nat → β
  mul : β → β → β
  ceil : β → Int
  /-- A rounded product is no smaller than a representable factor the exact one is not. -/
  le_mul_ofNat : ∀ (r : β) (n : Nat), ofNat 0 < r → 0 < n → r ≤ mul r (ofNat n)
  ceil_pos : ∀ x : β, ofNat 0 < x → 0 < ceil x
  /-- An infinite factor makes NaN, whose cast is zero too. -/
  ceil_mul_zero : ∀ r : β, ceil (mul r (ofNat 0)) = 0

/-- Exact arithmetic on the rationals. -/
instance : F64 Rat where
  ofNat n := n
  mul x y := x * y
  ceil x := ⌈x⌉
  le_mul_ofNat r n hr hn := by
    have hone : (1 : Rat) ≤ n := by exact_mod_cast hn
    exact le_mul_of_one_le_right (by simpa using hr.le) hone
  ceil_pos x hx := Int.ceil_pos.mpr (by simpa using hx)
  ceil_mul_zero r := by simp

namespace F32

def exactTrunc {K : Type} [Field K] [LinearOrder K] [FloorRing K] (x : K) : Int :=
  if 0 ≤ x then ⌊x⌋ else ⌈x⌉

theorem exactTrunc_natCast_div {K : Type} [Field K] [LinearOrder K] [IsStrictOrderedRing K]
    [FloorRing K] (m n : Nat) : exactTrunc ((m : K) / n) = (m / n : Nat) := by
  have h : (0 : K) ≤ (m : K) / n := by positivity
  have hfloor : ⌊(m : K) / n⌋₊ = m / n := Nat.floor_div_eq_div m n
  rw [exactTrunc, if_pos h, ← hfloor, Int.natCast_floor_eq_floor h]

/-- Truncation leaves no range that is symmetric about zero. -/
theorem exactTrunc_bounds {K : Type} [Field K] [LinearOrder K] [IsStrictOrderedRing K]
    [FloorRing K] (x : K) (n : Nat) (h : |x| ≤ n) :
    -(n : Int) ≤ exactTrunc x ∧ exactTrunc x ≤ n := by
  obtain ⟨hlo, hhi⟩ := abs_le.mp h
  rw [exactTrunc]
  split
  · rename_i hx
    refine ⟨(Int.floor_nonneg.mpr hx).trans' (by omega), ?_⟩
    exact Int.floor_le_iff.mpr (by push_cast; linarith)
  · rename_i hx
    refine ⟨Int.le_ceil_iff.mpr (by push_cast; linarith), ?_⟩
    exact Int.ceil_le.mpr (by exact_mod_cast hhi)

/-- What lies strictly within such a range is truncated to less than its bound. -/
theorem exactTrunc_lt {K : Type} [Field K] [LinearOrder K] [IsStrictOrderedRing K]
    [FloorRing K] (x : K) (n : Nat) (h : |x| < n) :
    -(n : Int) < exactTrunc x ∧ exactTrunc x < n := by
  obtain ⟨hlo, hhi⟩ := abs_lt.mp h
  rw [exactTrunc]
  split
  · rename_i hx
    have hnonneg : 0 ≤ ⌊x⌋ := Int.floor_nonneg.mpr hx
    have hbelow : ⌊x⌋ < n := Int.floor_lt.mpr (by exact_mod_cast hhi)
    omega
  · rename_i hx
    have habove : -(n : Int) < ⌈x⌉ := Int.lt_ceil.mpr (by push_cast; exact hlo)
    have hnonpos : ⌈x⌉ ≤ 0 := Int.ceil_le.mpr (by push_cast; exact (not_le.mp hx).le)
    omega

section Exact

variable {K : Type} [Field K] [LinearOrder K] [IsStrictOrderedRing K] [FloorRing K] [Ln K]

/-- Exact arithmetic: every operation is the field's own. -/
instance (priority := low) exact : F32 K where
  lit q := (q : K)
  ofInt z := (z : K)
  add x y := x + y
  sub x y := x - y
  mul x y := x * y
  div x y := x / y
  ln := Ln.ln
  trunc := exactTrunc
  truncDiv x y :=
    if y = 0 then if x = 0 then 0 else if 0 < x then 2 ^ 64 else -2 ^ 64
    else exactTrunc (x / y)
  zero_lt_floor := by norm_num
  floor_lt_peak := by norm_num
  trunc_scaled n _ := by
    have h : ((n : Int) : K) * ((16000 / 2 / 1024 / 64 : Rat) : K) =
        ((n * 125 : Nat) : K) / (1024 : Nat) := by
      push_cast
      ring
    rw [h, exactTrunc_natCast_div]

end Exact

/-- The nearest integer, ties to the even one. -/
def roundHalfEven (x : Rat) : Int :=
  if x - ⌊x⌋ < 1 / 2 then ⌊x⌋
  else if 1 / 2 < x - ⌊x⌋ then ⌊x⌋ + 1
  else if ⌊x⌋ % 2 = 0 then ⌊x⌋ else ⌊x⌋ + 1

/-- The nearest number of 24 significant bits, ties to the even one. -/
def binary32 (x : Rat) : Rat :=
  if x = 0 then 0
  else roundHalfEven (x / 2 ^ (Int.log 2 |x| - 23)) * 2 ^ (Int.log 2 |x| - 23)

end F32
