import Mathlib
import ShazamioCore.Binary32
import ShazamioCore.ChunkRuns
import ShazamioCore.SignatureReader

/-!
# The reported duration

The record handed to Python names a signature's length in milliseconds, computed in
single precision. A length below 2^24 is held exactly, but the two roundings that follow
can carry the product one unit away from it: below a whole millisecond, which the cast
then drops, or up to one. A longer length is rounded before them too.
-/
namespace Communication

open MachineInt F32 Binary32 SignatureFormat Algorithm

structure SignatureSong where
  samples : UInt32
  uri : String

structure Signature where
  signature : SignatureSong
  timestamp : UInt64
  timezone : String

inductive JsonError where
  | systemTime
  | tryFromInt
  deriving DecidableEq, Repr

def dataUriPrefix : String := "data:audio/vnd.shazam.sig;base64,"

def encodeToUri (o : Overflow) (crc32 : List UInt8 → UInt32) (base64 : List UInt8 → String)
    (self : DecodedSignature) : Option String :=
  (encodeToBinary o crc32 self).map fun bytes => dataUriPrefix ++ base64 bytes

/-- `(number_samples as f32 / sample_rate_hz as f32 * 1000.) as u32`, with every rounding. A
rate of zero makes NaN or an infinity. -/
def durationMs (numberSamples sampleRateHz : UInt32) : UInt32 :=
  if sampleRateHz = 0 then if numberSamples = 0 then 0 else 0xffffffff
  else
    let quotient := binary32 (binary32 numberSamples.toNat / binary32 sampleRateHz.toNat)
    saturateU32 ⌊binary32 (quotient * 1000)⌋

/-- `now` is the clock in milliseconds since the epoch, if it is past it. `none` is a panic of
the encoder. -/
def getSignatureJson (o : Overflow) (crc32 : List UInt8 → UInt32) (base64 : List UInt8 → String)
    (now : Option Nat) (signature : DecodedSignature) : Option (Except JsonError Signature) :=
  match now with
  | none => some (.error .systemTime)
  | some milliseconds =>
    if milliseconds < 2 ^ 64 then
      (encodeToUri o crc32 base64 signature).map fun uri => .ok
        { signature :=
            { samples := durationMs signature.numberSamples signature.sampleRateHz, uri := uri }
          timestamp := UInt64.ofNat milliseconds
          timezone := "Europe/Paris" }
    else some (.error .tryFromInt)

section Roundings

/-- By how many units the division by 16000 and the product with 1000 carry a significand. -/
def carried (significand : Nat) : Int :=
  let residue := 64 * significand % 125
  if significand < 125 * 2 ^ 17 ∨ 2 ^ 24 ≤ significand then 0
  else if 33 ≤ residue ∧ residue ≤ 62 ∨ residue = 32 ∧ significand % 2 = 1 then -1
  else if 63 ≤ residue ∧ residue ≤ 92 ∨ residue = 93 ∧ significand % 2 = 1 then 1
  else 0

/-- A quotient by 125 is never halfway, and its multiple is at most 62 off. -/
theorem nearest_125 (a : Nat) :
    a ≤ 125 * nearest a 125 + 62 ∧ 125 * nearest a 125 ≤ a + 62 := by
  rw [nearest]
  split
  · omega
  · omega

theorem nearest_low (m : Nat) (hlo : 2 ^ 23 ≤ m) (hhi : m < 125 * 2 ^ 17) :
    2 ^ 23 * 128 ≤ 125 * nearest (128 * m) 125 ∧ 125 * nearest (128 * m) 125 < 2 ^ 24 * 128 ∧
      nearest (125 * nearest (128 * m) 125) 128 = m := by
  obtain ⟨hbelow, habove⟩ := nearest_125 (128 * m)
  have hfloor : 2 ^ 23 * 128 ≤ 125 * nearest (128 * m) 125 := by
    by_cases hm : m = 2 ^ 23
    · subst hm
      decide
    · omega
  constructor
  · exact hfloor
  constructor
  · omega
  generalize 125 * nearest (128 * m) 125 = product at *
  rw [nearest]
  split
  · omega
  · omega

theorem nearest_below (m r : Nat) (hm : 0 < m) (hr : r ≤ 62) :
    nearest (64 * m - r) 64 = if r < 32 ∨ r = 32 ∧ m % 2 = 0 then m else m - 1 := by
  rw [nearest]
  split
  · split <;> omega
  · split <;> omega

theorem nearest_above (m r : Nat) (hr : r ≤ 62) :
    nearest (64 * m + r) 64 = if r < 32 ∨ r = 32 ∧ m % 2 = 0 then m else m + 1 := by
  rw [nearest]
  split
  · split <;> omega
  · split <;> omega

theorem nearest_high (m : Nat) (hlo : 125 * 2 ^ 17 ≤ m) (hhi : m < 2 ^ 24) :
    2 ^ 23 * 64 ≤ 125 * nearest (64 * m) 125 ∧ 125 * nearest (64 * m) 125 < 2 ^ 24 * 64 ∧
      (nearest (125 * nearest (64 * m) 125) 64 : Int) = m + carried m := by
  obtain ⟨hbelow, habove⟩ := nearest_125 (64 * m)
  constructor
  · omega
  constructor
  · omega
  have hresidue : 64 * m % 125 < 125 := Nat.mod_lt _ (by decide)
  simp only [carried]
  rw [if_neg (show ¬(m < 125 * 2 ^ 17 ∨ 2 ^ 24 ≤ m) by omega)]
  by_cases hdown : 64 * m % 125 ≤ 62
  · have hproduct : 125 * nearest (64 * m) 125 = 64 * m - 64 * m % 125 := by
      rw [nearest, if_neg (by omega)]
      omega
    rw [hproduct, nearest_below m _ (by omega) hdown]
    generalize 64 * m % 125 = residue at *
    split <;> split_ifs <;> omega
  · have hproduct : 125 * nearest (64 * m) 125 = 64 * m + (125 - 64 * m % 125) := by
      rw [nearest, if_pos (by omega)]
      omega
    rw [hproduct, nearest_above m _ (by omega)]
    generalize 64 * m % 125 = residue at *
    split <;> split_ifs <;> omega

/-- The division and the product, where the quotient of the significand by 125 has its point
`j` bits to the left. -/
theorem binary32_scaled (m j : Nat) (k : Int) (hlo : 2 ^ 23 * 125 ≤ 2 ^ j * m)
    (hhi : 2 ^ j * m < 2 ^ 24 * 125)
    (hfloor : 2 ^ 23 * 2 ^ j ≤ 125 * nearest (2 ^ j * m) 125)
    (hceil : 125 * nearest (2 ^ j * m) 125 < 2 ^ 24 * 2 ^ j) :
    binary32 (binary32 (m * 2 ^ k / 16000) * 1000) =
      nearest (125 * nearest (2 ^ j * m) 125) (2 ^ j) * 2 ^ k / 16 := by
  have hne : (2 : Rat) ^ j ≠ 0 := by positivity
  have hquotient : (m * 2 ^ k / 16000 : Rat) =
      (2 ^ j * m : Nat) / (125 : Nat) * 2 ^ (k - 7 - j) := by
    rw [zpow_sub₀ two_ne_zero, zpow_sub₀ two_ne_zero, zpow_natCast]
    push_cast
    field_simp
    ring
  have hproduct : (nearest (2 ^ j * m) 125 * 2 ^ (k - 7 - j) * 1000 : Rat) =
      (125 * nearest (2 ^ j * m) 125 : Nat) / (2 ^ j : Nat) * 2 ^ (k - 4) := by
    rw [zpow_sub₀ two_ne_zero, zpow_sub₀ two_ne_zero, zpow_sub₀ two_ne_zero, zpow_natCast]
    push_cast
    field_simp
    ring
  rw [hquotient, binary32_div _ _ _ hlo hhi, hproduct, binary32_div _ _ _ hfloor hceil,
    zpow_sub₀ two_ne_zero]
  push_cast
  ring

theorem binary32_product (m : Nat) (k : Int) (hlo : 2 ^ 23 ≤ m) (hhi : m < 2 ^ 24) :
    binary32 (binary32 (m * 2 ^ k / 16000) * 1000) = (m + carried m) * 2 ^ k / 16 := by
  by_cases hm : m < 125 * 2 ^ 17
  · obtain ⟨hfloor, hceil, hnearest⟩ := nearest_low m hlo hm
    have hcarried : carried m = 0 := if_pos (Or.inl hm)
    rw [binary32_scaled m 7 k (by omega) (by omega) hfloor hceil, hcarried]
    norm_num [hnearest]
  · obtain ⟨hfloor, hceil, hnearest⟩ := nearest_high m (by omega) hhi
    have hcast : (nearest (125 * nearest (64 * m) 125) 64 : Rat) = m + carried m := by
      exact_mod_cast hnearest
    rw [binary32_scaled m 6 k (by omega) (by omega) hfloor hceil, ← hcast]
    norm_num

/-- The 24 leading bits of a length, the rest of it rounded into them. -/
def significand (n : Nat) : Nat :=
  if n < 2 ^ 24 then n * 2 ^ (23 - n.log2) else nearest n (2 ^ (n.log2 - 23))

theorem zpow_unit_short (e : Nat) (he : e ≤ 23) :
    (2 : Rat) ^ ((e : Int) - 23) = ((2 : Rat) ^ (23 - e))⁻¹ := by
  rw [show (e : Int) - 23 = -((23 - e : Nat) : Int) by omega, zpow_neg, zpow_natCast]

theorem zpow_unit_long (e : Nat) (he : 23 ≤ e) :
    (2 : Rat) ^ ((e : Int) - 23) = 2 ^ (e - 23) := by
  rw [show (e : Int) - 23 = ((e - 23 : Nat) : Int) by omega, zpow_natCast]

/-- A length of at most 24 bits is held as it is. -/
theorem binary32_short (n : Nat) (hn : 0 < n) (hshort : n < 2 ^ 24) :
    binary32 n = (n * 2 ^ (23 - n.log2) : Nat) * 2 ^ ((n.log2 : Int) - 23) ∧
      2 ^ 23 ≤ n * 2 ^ (23 - n.log2) ∧ n * 2 ^ (23 - n.log2) < 2 ^ 24 := by
  have hlog : n.log2 < 24 := (Nat.log2_lt hn.ne').mpr hshort
  have hpower : 2 ^ n.log2 * 2 ^ (23 - n.log2) = 2 ^ 23 := by
    rw [← pow_add, Nat.add_sub_cancel' (by omega)]
  have hfloor : 2 ^ 23 ≤ n * 2 ^ (23 - n.log2) := by
    rw [← hpower]
    exact Nat.mul_le_mul_right _ (Nat.log2_self_le hn.ne')
  have hceil : n * 2 ^ (23 - n.log2) < 2 ^ 24 := by
    calc n * 2 ^ (23 - n.log2) < 2 ^ (n.log2 + 1) * 2 ^ (23 - n.log2) :=
          Nat.mul_lt_mul_of_pos_right Nat.lt_log2_self (by positivity)
      _ = 2 * (2 ^ n.log2 * 2 ^ (23 - n.log2)) := by ring
      _ = 2 ^ 24 := by rw [hpower]; norm_num
  have hscaled : (n : Rat) = (n * 2 ^ (23 - n.log2) : Nat) / (1 : Nat) *
      2 ^ ((n.log2 : Int) - 23) := by
    rw [zpow_unit_short n.log2 (by omega)]
    push_cast
    field_simp
  have hrounded := binary32_div (n * 2 ^ (23 - n.log2)) 1 ((n.log2 : Int) - 23) (by omega)
    (by omega)
  rw [← hscaled, nearest_one] at hrounded
  exact ⟨hrounded, hfloor, hceil⟩

/-- A longer one is rounded to a multiple of its last bit, and may come to a power of two. -/
theorem binary32_long (n : Nat) (hlong : 2 ^ 24 ≤ n) :
    binary32 n = nearest n (2 ^ (n.log2 - 23)) * 2 ^ ((n.log2 : Int) - 23) ∧
      2 ^ 23 ≤ nearest n (2 ^ (n.log2 - 23)) ∧ nearest n (2 ^ (n.log2 - 23)) ≤ 2 ^ 24 := by
  have hn : n ≠ 0 := by omega
  have hlog : 24 ≤ n.log2 := (Nat.le_log2 hn).mpr hlong
  have hunit : 0 < 2 ^ (n.log2 - 23) := by positivity
  have hfloor : 2 ^ 23 * 2 ^ (n.log2 - 23) ≤ n := by
    rw [← pow_add, Nat.add_sub_cancel' (by omega)]
    exact Nat.log2_self_le hn
  have hceil : n < 2 ^ 24 * 2 ^ (n.log2 - 23) := by
    rw [← pow_add, show 24 + (n.log2 - 23) = n.log2 + 1 by omega]
    exact Nat.lt_log2_self
  have hscaled : (n : Rat) = (n : Nat) / (2 ^ (n.log2 - 23) : Nat) *
      2 ^ ((n.log2 : Int) - 23) := by
    rw [zpow_unit_long n.log2 (by omega)]
    push_cast
    field_simp
  have hrounded := binary32_div n (2 ^ (n.log2 - 23)) ((n.log2 : Int) - 23) hfloor hceil
  rw [← hscaled] at hrounded
  exact ⟨hrounded, le_nearest _ _ _ hunit hfloor, nearest_le _ _ _ hunit hceil⟩

theorem binary32_natCast (n : Nat) (hn : 0 < n) :
    binary32 n = significand n * 2 ^ ((n.log2 : Int) - 23) ∧
      2 ^ 23 ≤ significand n ∧ significand n ≤ 2 ^ 24 := by
  rw [significand]
  split
  · rename_i hshort
    obtain ⟨hrounded, hfloor, hceil⟩ := binary32_short n hn hshort
    exact ⟨hrounded, hfloor, hceil.le⟩
  · rename_i hlong
    exact binary32_long n (not_lt.mp hlong)

theorem carried_bounds (m : Nat) : -1 ≤ carried m ∧ carried m ≤ 1 := by
  simp only [carried]
  split
  · decide
  · split
    · decide
    · split
      · decide
      · decide

/-- The product the cast is taken of. -/
theorem binary32_duration (n : Nat) (hn : 0 < n) :
    binary32 (binary32 (binary32 n / 16000) * 1000) =
      ((significand n + carried (significand n) : Int) : Rat) * 2 ^ ((n.log2 : Int) - 23) / 16 := by
  obtain ⟨hrounded, hlo, hhi⟩ := binary32_natCast n hn
  rw [hrounded]
  push_cast
  by_cases hm : significand n = 2 ^ 24
  · -- The length is rounded up to the next power of two.
    have hcarry : (2 ^ 24 : Nat) * (2 : Rat) ^ ((n.log2 : Int) - 23) =
        (2 ^ 23 : Nat) * 2 ^ ((n.log2 : Int) - 22) := by
      rw [show (n.log2 : Int) - 22 = (n.log2 : Int) - 23 + 1 by ring, zpow_add_one₀ two_ne_zero]
      push_cast
      ring
    have hlow : carried (2 ^ 23) = 0 := by decide
    have hhigh : carried (2 ^ 24) = 0 := by decide
    have hproduct := binary32_product (2 ^ 23) ((n.log2 : Int) - 22) le_rfl (by norm_num)
    rw [hlow] at hproduct
    rw [hm, hcarry, hproduct, hhigh, Int.cast_zero, add_zero, add_zero, hcarry]
  · exact binary32_product _ _ hlo (by omega)

/-- How far a length past 24 bits is moved: to the nearest multiple of its last bit, and by the
units carried. -/
def drift (n : Nat) : Int :=
  (significand n * 2 ^ (n.log2 - 23) - n) + carried (significand n) * 2 ^ (n.log2 - 23)

/-- The lengths whose whole milliseconds survive the roundings: below 2^24 all but those a
unit takes below a millisecond or up to the next. -/
def Kept (n : Nat) : Prop :=
  if n < 2 ^ 24 then
    (n % 16 = 0 → carried (significand n) ≠ -1) ∧
      (n % 16 = 15 → 2 ^ 23 ≤ n → carried (significand n) ≠ 1)
  else 0 ≤ (n % 16 : Nat) + drift n ∧ (n % 16 : Nat) + drift n < 16

instance (n : Nat) : Decidable (Kept n) := by
  unfold Kept
  infer_instance

/-- A fraction in sixteenths of `scale` has the whole part of `n / 16` where its distance from
`n` leaves the rest of `n` in range. -/
theorem floor_sixteenths (product : Int) (n scale : Nat) (hscale : 0 < scale) :
    ⌊(product : Rat) / (16 * scale : Nat)⌋ = (n / 16 : Nat) ↔
      0 ≤ (n % 16 : Nat) * (scale : Int) + (product - n * scale) ∧
        (n % 16 : Nat) * (scale : Int) + (product - n * scale) < 16 * scale := by
  have hn : (n : Int) = 16 * (n / 16 : Nat) + (n % 16 : Nat) := by omega
  rw [Rat.floor_intCast_div_natCast, Int.ediv_eq_iff_of_pos (by positivity)]
  generalize (n / 16 : Nat) = quotient at *
  generalize (n % 16 : Nat) = rest at *
  rw [hn]
  push_cast
  constructor
  · rintro ⟨hlo, hhi⟩
    constructor <;> linarith
  · rintro ⟨hlo, hhi⟩
    constructor <;> linarith

/-- A drift of less than a sample, in units of `1 / scale`. -/
theorem drift_small (rest scale : Nat) (drift : Int) (hrest : rest < 16) (hscale : 0 < scale)
    (hlo : -1 ≤ drift) (hhi : drift ≤ 1) :
    0 ≤ rest * (scale : Int) + drift ∧ rest * (scale : Int) + drift < 16 * scale ↔
      (rest = 0 → drift ≠ -1) ∧ (rest = 15 → scale = 1 → drift ≠ 1) := by
  interval_cases rest <;> omega

/-- All roundings taken together, the whole milliseconds come out exactly for the lengths kept. -/
theorem floor_iff (n : Nat) (hn : 0 < n) :
    ⌊binary32 (binary32 (binary32 n / 16000) * 1000)⌋ = (n / 16 : Nat) ↔ Kept n := by
  rw [binary32_duration n hn, Kept]
  split
  · rename_i hshort
    have hlog : n.log2 < 24 := (Nat.log2_lt hn.ne').mpr hshort
    have hscale : 0 < 2 ^ (23 - n.log2) := by positivity
    have hone : 2 ^ (23 - n.log2) = 1 ↔ 2 ^ 23 ≤ n := by
      rw [← Nat.le_log2 hn.ne', Nat.pow_eq_one]
      omega
    have hsignificand : significand n = n * 2 ^ (23 - n.log2) := if_pos hshort
    have hvalue : ((significand n + carried (significand n) : Int) : Rat) *
        2 ^ ((n.log2 : Int) - 23) / 16 =
          ((significand n + carried (significand n) : Int) : Rat) /
            (16 * 2 ^ (23 - n.log2) : Nat) := by
      rw [zpow_unit_short n.log2 (by omega)]
      push_cast
      field_simp
    have hdrift : (significand n + carried (significand n) : Int) -
        n * (2 ^ (23 - n.log2) : Nat) = carried (significand n) := by
      rw [hsignificand]
      push_cast
      ring
    obtain ⟨hlo, hhi⟩ := carried_bounds (significand n)
    rw [hvalue, floor_sixteenths _ n _ hscale, hdrift,
      drift_small _ _ _ (Nat.mod_lt n (by decide)) hscale hlo hhi, hone]
  · rename_i hlong
    have hlog : 24 ≤ n.log2 := (Nat.le_log2 hn.ne').mpr (not_lt.mp hlong)
    have hvalue : ((significand n + carried (significand n) : Int) : Rat) *
        2 ^ ((n.log2 : Int) - 23) / 16 =
          (((significand n + carried (significand n)) * 2 ^ (n.log2 - 23) : Int) : Rat) /
            (16 * 1 : Nat) := by
      rw [zpow_unit_long n.log2 (by omega)]
      push_cast
      ring
    have hdrift : ((significand n + carried (significand n)) * 2 ^ (n.log2 - 23) : Int) -
        n * (1 : Nat) = drift n := by
      rw [drift]
      push_cast
      ring
    rw [hvalue, floor_sixteenths _ n 1 one_pos, hdrift, Nat.cast_one, mul_one, mul_one]

/-- The duration of audio at 16 kHz is right where its length is kept. -/
theorem durationMs_eq_iff (n : UInt32) :
    (durationMs n sampleRateHz).toNat = n.toNat / 16 ↔ Kept n.toNat := by
  by_cases hn : n.toNat = 0
  · obtain rfl : n = 0 := UInt32.toNat_inj.mp hn
    decide +kernel
  · have hpos : 0 < n.toNat := by omega
    have hrate : binary32 (sampleRateHz.toNat : Rat) = 16000 := by decide +kernel
    have hbound : n.toNat < 2 ^ 32 := n.toNat_lt
    have hfloor : 0 ≤ ⌊binary32 (binary32 (binary32 n.toNat / 16000) * 1000)⌋ := by
      rw [Int.floor_nonneg, binary32_duration _ hpos]
      have hlo := (binary32_natCast n.toNat hpos).2.1
      have hcarried := (carried_bounds (significand n.toNat)).1
      have hsum : (0 : Int) ≤ significand n.toNat + carried (significand n.toNat) := by omega
      have hsum' : (0 : Rat) ≤ (significand n.toNat + carried (significand n.toNat) : Int) := by
        exact_mod_cast hsum
      positivity
    rw [durationMs, if_neg (by decide), hrate, toNat_saturateU32 _ hfloor, ← floor_iff _ hpos]
    omega

end Roundings

section Reported

variable {α : Type} [LinearOrder α] [F32 α]

theorem getSignatureJson_samples {o : Overflow} {crc32 : List UInt8 → UInt32}
    {base64 : List UInt8 → String} {now : Option Nat} {signature : DecodedSignature}
    {json : Signature} (h : getSignatureJson o crc32 base64 now signature = some (.ok json)) :
    json.signature.samples = durationMs signature.numberSamples signature.sampleRateHz := by
  unfold getSignatureJson at h
  split at h
  · cases h
  · split at h
    · obtain ⟨uri, -, hjson⟩ := Option.map_eq_some_iff.mp h
      cases hjson
      rfl
    · cases h

/-- A signature that is encoded before the clock runs out is reported. -/
theorem getSignatureJson_ok {o : Overflow} {crc32 : List UInt8 → UInt32}
    (base64 : List UInt8 → String) {milliseconds : Nat} {signature : DecodedSignature}
    {bytes : List UInt8} (hbytes : encodeToBinary o crc32 signature = some bytes)
    (hnow : milliseconds < 2 ^ 64) :
    ∃ json, getSignatureJson o crc32 base64 (some milliseconds) signature = some (.ok json) := by
  unfold getSignatureJson encodeToUri
  rw [hbytes]
  exact ⟨_, if_pos hnow⟩

/-- The standard alphabet, three bytes to four digits. -/
def base64Digit (n : Nat) : Char :=
  "ABCDEFGHIJKLMNOPQRSTUVWXYZabcdefghijklmnopqrstuvwxyz0123456789+/".toList.getD n '='

def base64Digits : List UInt8 → List Char
  | [] => []
  | [a] => [base64Digit (a.toNat / 4), base64Digit (a.toNat % 4 * 16), '=', '=']
  | [a, b] =>
    [base64Digit (a.toNat / 4), base64Digit (a.toNat % 4 * 16 + b.toNat / 16),
      base64Digit (b.toNat % 16 * 4), '=']
  | a :: b :: c :: rest =>
    base64Digit (a.toNat / 4) :: base64Digit (a.toNat % 4 * 16 + b.toNat / 16) ::
      base64Digit (b.toNat % 16 * 4 + c.toNat / 64) :: base64Digit (c.toNat % 64) ::
        base64Digits rest

def standardBase64 (bytes : List UInt8) : String := String.ofList (base64Digits bytes)

noncomputable def silentFft (_ : Vector ℝ 2048) : Vector (ℝ × ℝ) 1025 :=
  Vector.replicate 1025 (0, 0)

/-- Silence too short for a pass to be searched is reported all the same. -/
theorem reported_silence (n : Nat) (hn : n < 46 * 128) : ∃ signature json,
    makeSignatureFromBuffer .panics silentFft (List.replicate n 0) = some signature ∧
      getSignatureJson .panics SignatureFraming.crc32Ieee standardBase64 (some 0) signature =
        some (.ok json) := by
  have hmake := SampleRing.makeSignatureFromBuffer_eq .panics silentFft (List.replicate n 0)
    (by rw [List.length_replicate]; omega)
  rw [List.length_replicate] at hmake
  have hexamined : GeneratorRun.examined (n / 128) = [] := by
    rw [GeneratorRun.examined, List.range_eq_nil]
    omega
  rw [GeneratorRun.record, hexamined] at hmake
  have hrate : sampleRateHz.toNat = 16000 := by decide
  have hnumber : (UInt32.ofNat n).toNat = n :=
    UInt32.toNat_ofNat_of_lt' (show n < 2 ^ 32 by omega)
  have hencodable : SignatureReader.Encodable ⟨sampleRateHz, UInt32.ofNat n, ∅⟩ :=
    { rate := by
        rw [hrate]
        decide
      pad := by
        rw [hrate, hnumber]
        omega
      nondecreasing := fun entry hentry => absurd hentry List.not_mem_nil
      length := show 56 + 0 < 2 ^ 32 by decide }
  obtain ⟨_, _, -, hbytes⟩ :=
    SignatureReader.encodeToBinary_accepts .panics SignatureFraming.crc32Ieee _ hencodable
  obtain ⟨json, hjson⟩ := getSignatureJson_ok standardBase64 hbytes (show 0 < 2 ^ 64 by decide)
  exact ⟨_, json, hmake, hjson⟩

/-- The duration reported of a buffer is its length in whole milliseconds for the lengths that
are kept, and for no others. -/
theorem reported_iff (o : Overflow) (fft : Vector α 2048 → Vector (α × α) 1025)
    (s : List Int16) (hs : s.length < 2 ^ 32) (crc32 : List UInt8 → UInt32)
    (base64 : List UInt8 → String) (now : Option Nat) (signature : DecodedSignature)
    (json : Signature) (hmake : makeSignatureFromBuffer o fft s = some signature)
    (hjson : getSignatureJson o crc32 base64 now signature = some (.ok json)) :
    json.signature.samples.toNat = s.length * 1000 / 16000 ↔ Kept s.length := by
  obtain ⟨hrate, hnumber⟩ := ChunkRuns.makeSignatureFromBuffer_labels hmake
  have hlength : (UInt32.ofNat s.length).toNat = s.length := UInt32.toNat_ofNat_of_lt' hs
  have hiff := durationMs_eq_iff (UInt32.ofNat s.length)
  rw [hlength] at hiff
  rw [getSignatureJson_samples hjson, hrate, hnumber, ← hiff,
    show s.length * 1000 / 16000 = s.length / 16 by omega]

/-- Audio of 4000 samples, a quarter of a second. -/
theorem reported_iff_silence : ∃ signature json,
    makeSignatureFromBuffer .panics silentFft (List.replicate 4000 0) = some signature ∧
      getSignatureJson .panics SignatureFraming.crc32Ieee standardBase64 (some 0) signature =
        some (.ok json) ∧
      json.signature.samples.toNat = 250 := by
  obtain ⟨signature, json, hmake, hjson⟩ := reported_silence 4000 (by decide)
  have hlength : (List.replicate 4000 (0 : Int16)).length = 4000 := List.length_replicate
  have hiff := reported_iff .panics silentFft (List.replicate 4000 0) (by rw [hlength]; decide) _ _
    _ signature json hmake hjson
  rw [hlength] at hiff
  exact ⟨signature, json, hmake, hjson, hiff.mpr (by decide)⟩

/-- Audio of 251 ms is reported as 250. -/
theorem reported_short : ∃ signature json,
    makeSignatureFromBuffer .panics silentFft (List.replicate 4016 0) = some signature ∧
      getSignatureJson .panics SignatureFraming.crc32Ieee standardBase64 (some 0) signature =
        some (.ok json) ∧
      json.signature.samples.toNat = 250 ∧
      (List.replicate 4016 (0 : Int16)).length * 1000 / 16000 = 251 := by
  obtain ⟨signature, json, hmake, hjson⟩ := reported_silence 4016 (by decide)
  obtain ⟨hrate, hnumber⟩ := ChunkRuns.makeSignatureFromBuffer_labels hmake
  refine ⟨signature, json, hmake, hjson, ?_, ?_⟩
  · rw [getSignatureJson_samples hjson, hrate, hnumber, List.length_replicate]
    decide +kernel
  · rw [List.length_replicate]

end Reported

end Communication
