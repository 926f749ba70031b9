import Mathlib
import ShazamioCore.PeakDetection

/-!
# The position of a peak between its bins

In exact arithmetic a peak's correction stays within half a bin: a local maximum of the
spectrum is one of its logarithm, and the parabola through three points with the middle
one on top has its vertex between the outer ones. Where the logarithm is cut off below,
points tie, and a middle that ties with one of its sides ties with both.
-/
namespace Interpolation

open MachineInt SignatureFormat Algorithm PeakDetection

section Landmark

variable {α : Type} [LinearOrder α] [F32 α]

/-- The landmark of a bin whose correction stays in range: the sum and the cast are exact. -/
theorem landmark_corrected (o : Overflow) (num : UInt32) (spectrum : Spectrum α) (b : Nat)
    (hlo : 10 ≤ b) (hhi : b ≤ 1014) (before magnitude after : α)
    (hbefore : logMagnitude (value spectrum (b - 1)) = before)
    (hmagnitude : logMagnitude (value spectrum b) = magnitude)
    (hafter : logMagnitude (value spectrum (b + 1)) = after)
    (hassert : F32.lit 0 ≤ peakVariation1 before magnitude after)
    (hdlo : -32 ≤ peakVariation2 before magnitude after)
    (hdhi : peakVariation2 before magnitude after ≤ 32) :
    addI32 o (b * 64) (peakVariation2 before magnitude after) =
        some (b * 64 + peakVariation2 before magnitude after) ∧
      ((wrapU16 (b * 64 + peakVariation2 before magnitude after)).toNat : Int) =
        b * 64 + peakVariation2 before magnitude after ∧
      landmark o num spectrum b = (subU32 o num 46).map fun fftPassNumber =>
        ⟨fftPassNumber, saturateU16 (F32.trunc magnitude),
          wrapU16 (b * 64 + peakVariation2 before magnitude after)⟩ := by
  generalize hd : peakVariation2 before magnitude after = d at hdlo hdhi ⊢
  have hsum : addI32 o (b * 64) d = some (b * 64 + d) := addI32_fits o _ _ ⟨by omega, by omega⟩
  refine ⟨hsum, ?_, ?_⟩
  · rw [toNat_wrapU16 _ (by omega) (by omega)]
    omega
  · simp only [landmark, getElem?_eq_value spectrum b (by omega),
      getElem?_eq_value spectrum (b - 1) (by omega),
      getElem?_eq_value spectrum (b + 1) (by omega), Option.bind_eq_bind, Option.bind_some,
      hbefore, hmagnitude, hafter, hd, hsum]
    cases subU32 o num 46 with
    | none => rfl
    | some fftPassNumber => simp [hassert]

end Landmark

section Exact

variable {K : Type} [Field K] [LinearOrder K] [IsStrictOrderedRing K] [FloorRing K] [Ln K]

theorem logMagnitude_eq (x : K) :
    logMagnitude x = max (Ln.ln x) (1 / 64) * (14773 / 10) + 6144 := by
  simp [logMagnitude, F32.add, F32.mul, F32.ln, F32.lit]

theorem logMagnitude_le {S : Set K} (hln : MonotoneOn Ln.ln S) {x y : K} (hx : x ∈ S)
    (hy : y ∈ S) (hxy : x ≤ y) : logMagnitude x ≤ logMagnitude y := by
  rw [logMagnitude_eq, logMagnitude_eq]
  have hlog := hln hx hy hxy
  gcongr

/-- A smaller value with the same magnitude means that both are cut off. -/
theorem logMagnitude_cut {S : Set K} (hln : StrictMonoOn Ln.ln S) {x y : K} (hx : x ∈ S)
    (hy : y ∈ S) (hxy : x < y) (h : logMagnitude x = logMagnitude y) : Ln.ln y ≤ 1 / 64 := by
  rw [logMagnitude_eq, logMagnitude_eq] at h
  have hcut : max (Ln.ln x) (1 / 64) = max (Ln.ln y) (1 / 64 : K) := by linarith
  by_contra hlarge
  rw [not_le] at hlarge
  have hlog := hln hx hy hxy
  rw [max_eq_left hlarge.le] at hcut
  have hlt : max (Ln.ln x) (1 / 64) < Ln.ln y := max_lt hlog hlarge
  exact absurd hcut hlt.ne

/-- Below a value that is cut off, every magnitude is the same. -/
theorem logMagnitude_eq_of_cut {S : Set K} (hln : StrictMonoOn Ln.ln S) {x y : K} (hx : x ∈ S)
    (hy : y ∈ S) (hxy : x < y) (hcut : Ln.ln y ≤ 1 / 64) : logMagnitude x = logMagnitude y := by
  have hlog := hln hx hy hxy
  rw [logMagnitude_eq, logMagnitude_eq, max_eq_right hcut, max_eq_right (hlog.le.trans hcut)]

theorem literal_zero_le (x : K) : F32.lit 0 ≤ x ↔ 0 ≤ x := by
  simp [F32.lit]

theorem peakVariation1_eq (before magnitude after : K) :
    peakVariation1 before magnitude after = magnitude * 2 - before - after := by
  simp [peakVariation1, F32.sub, F32.mul, F32.lit]

/-- The correction before the cast; nothing over nothing casts to zero. -/
theorem peakVariation2_eq (before magnitude after : K) (hbefore : before ≤ magnitude)
    (hafter : after ≤ magnitude) :
    peakVariation2 before magnitude after =
      if magnitude * 2 - before - after = 0 then 0
      else
        saturateI32 (F32.exactTrunc ((after - before) * 32 / (magnitude * 2 - before - after))) := by
  have hnum : F32.mul (F32.sub after before) (F32.lit 32) = (after - before) * 32 := by
    simp [F32.mul, F32.sub, F32.lit]
  rw [peakVariation2, hnum, peakVariation1_eq]
  simp only [F32.truncDiv]
  split
  · have hflat : (after - before) * 32 = 0 := by linarith
    rw [if_pos hflat]
    rfl
  · rfl

theorem saturateI32_small (z : Int) (hlo : -32 ≤ z) (hhi : z ≤ 32) : saturateI32 z = z :=
  saturateI32_of_mem z ⟨by omega, by omega⟩

/-- The correction of a bin that stands no lower than its neighbours. -/
theorem peakVariation2_bounds (before magnitude after : K) (hbefore : before ≤ magnitude)
    (hafter : after ≤ magnitude) :
    -32 ≤ peakVariation2 before magnitude after ∧ peakVariation2 before magnitude after ≤ 32 := by
  rw [peakVariation2_eq before magnitude after hbefore hafter]
  split
  · omega
  · rename_i hne
    have hpos : 0 < magnitude * 2 - before - after :=
      lt_of_le_of_ne (by linarith) (Ne.symm hne)
    have hbounds : |(after - before) * 32 / (magnitude * 2 - before - after)| ≤ (32 : Nat) := by
      rw [abs_div, abs_of_pos hpos, div_le_iff₀ hpos, abs_le]
      constructor
      · push_cast
        linarith
      · push_cast
        linarith
    obtain ⟨hlo, hhi⟩ := F32.exactTrunc_bounds _ 32 hbounds
    rw [saturateI32_small _ hlo hhi]
    exact ⟨hlo, hhi⟩

end Exact

/-- The landmark of a bin no lower than its neighbours: nothing stops it, and its corrected
bin is at most half a bin away. -/
theorem landmark_eq (o : Overflow) (num : UInt32) (spectrum : Spectrum ℝ) (b : Nat) (hlo : 10 ≤ b)
    (hhi : b ≤ 1014) (hbefore : 0 < value spectrum (b - 1)) (hafter : 0 < value spectrum (b + 1))
    (hlow : value spectrum (b - 1) ≤ value spectrum b)
    (hhigh : value spectrum (b + 1) ≤ value spectrum b) :
    ∃ magnitude corrected, (64 * b ≤ corrected.toNat + 32 ∧ corrected.toNat ≤ 64 * b + 32) ∧
      landmark o num spectrum b =
        (subU32 o num 46).map fun fftPassNumber => ⟨fftPassNumber, magnitude, corrected⟩ := by
  have hln : MonotoneOn (Ln.ln : ℝ → ℝ) (Set.Ioi 0) := Real.strictMonoOn_log.monotoneOn
  have hle := logMagnitude_le hln hbefore (hbefore.trans_le hlow) hlow
  have hge := logMagnitude_le hln hafter (hafter.trans_le hhigh) hhigh
  obtain ⟨hdlo, hdhi⟩ := peakVariation2_bounds _ _ _ hle hge
  have hassert : F32.lit 0 ≤ peakVariation1 (logMagnitude (value spectrum (b - 1)))
      (logMagnitude (value spectrum b)) (logMagnitude (value spectrum (b + 1))) := by
    rw [literal_zero_le, peakVariation1_eq]
    linarith
  obtain ⟨-, hcorrected, heq⟩ := landmark_corrected o num spectrum b hlo hhi _ _ _ rfl rfl rfl
    hassert hdlo hdhi
  refine ⟨_, _, ?_, heq⟩
  omega

end Interpolation
