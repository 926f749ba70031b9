import Mathlib
import ShazamioCore.PeakDetection
import ShazamioCore.RingBuffer

/-!
# The rings of spectra over a run

After `n` passes one ring holds the last 256 spectra and the other what each of those
passes keeps so far. A pass overwrites the oldest slot of both and raises three former
slots of the second; from this the test on a bin reads exactly what makes it a peak.
-/
namespace SpreadRings

open MachineInt Algorithm PeakDetection RingBuffer

variable {α : Type} [LinearOrder α] [F32 α]

theorem and_255 (x : Nat) : x &&& 255 = x % 256 := Nat.and_two_pow_sub_one_eq_mod x 8

/-- An offset from the index after `n` passes is an offset from pass `n`. -/
theorem ringSlot_eq (n : Nat) (offset : Int) :
    (ringSlot (n % 256) offset).val = slot 256 (n + offset) := by
  have hmask := andI32_mask ((n % 256 : Nat) + offset) 8 (by decide)
  have hmod : ((n % 256 : Nat) + offset) % 256 = (n + offset) % 256 := by omega
  simpa [ringSlot, slot, hmod] using hmask

section Spreading

theorem spreadPositions_getElem (spectrum : Spectrum α) (k : Nat) (hk : k ≤ 1023) (c : Nat)
    (hc : c < 1025) :
    (spreadPositions spectrum k hk)[c] = if c < k then spreadValue spectrum c else spectrum[c] := by
  induction k generalizing c with
  | zero => simp [spreadPositions]
  | succ position ih =>
    -- a step reads cells that no former step has written
    have hself := ih (by omega) position (by omega)
    have hone := ih (by omega) (position + 1) (by omega)
    have htwo := ih (by omega) (position + 2) (by omega)
    rw [if_neg (by omega)] at hself hone htwo
    simp only [spreadPositions, Vector.getElem_set, hself, hone, htwo]
    by_cases h : position = c
    · subst h
      simp only [if_true, Nat.lt_succ_self, spreadValue, value_eq spectrum position (by omega),
        value_eq spectrum (position + 1) (by omega), value_eq spectrum (position + 2) (by omega)]
    · rw [if_neg h, ih (by omega) c hc]
      congr 1
      apply propext
      omega

omit [F32 α] in
theorem raiseCell_getElem (ring : Vector (Spectrum α) 256) (slot : Fin 256) (position : Nat)
    (x : α) (h : position < 1025) (i c : Nat) (hi : i < 256) (hc : c < 1025) :
    (raiseCell ring slot position x h)[i][c] =
      if slot.val = i ∧ position = c then max ring[i][c] x else ring[i][c] := by
  by_cases hslot : slot.val = i
  · subst hslot
    by_cases hposition : position = c
    · subst hposition
      simp [raiseCell]
    · simp [raiseCell, hposition]
  · simp [raiseCell, hslot]

omit [F32 α] in
/-- One position raised in every former pass of a list; a pass may be listed twice. -/
theorem foldl_raiseCell_getElem (ring : Vector (Spectrum α) 256) (index : Nat) (offsets : List Int)
    (position : Nat) (x : α) (h : position < 1025) (i c : Nat) (hi : i < 256) (hc : c < 1025) :
    (offsets.foldl (fun ring formerFftNumber =>
        raiseCell ring (ringSlot index (-formerFftNumber)) position x h) ring)[i][c] =
      if (∃ d ∈ offsets, (ringSlot index (-d)).val = i) ∧ position = c then max ring[i][c] x
      else ring[i][c] := by
  induction offsets generalizing ring with
  | nil => simp
  | cons d offsets ih =>
    rw [List.foldl_cons, ih, raiseCell_getElem]
    by_cases hposition : position = c
    · by_cases hd : (ringSlot index (-d)).val = i
      · by_cases hrest : ∃ d ∈ offsets, (ringSlot index (-d)).val = i
        · simp [hposition, hd, hrest]
        · simp [hposition, hd, hrest]
      · simp [hposition, hd]
    · simp [hposition]

omit [F32 α] in
theorem spreadFormer_getElem (ring : Vector (Spectrum α) 256) (index : Nat) (copy : Spectrum α)
    (k : Nat) (hk : k ≤ 1025) (i c : Nat) (hi : i < 256) (hc : c < 1025) :
    (spreadFormer ring index copy k hk)[i][c] =
      if (∃ d ∈ ([1, 3, 6] : List Int), (ringSlot index (-d)).val = i) ∧ c < k then
        max ring[i][c] copy[c]
      else ring[i][c] := by
  induction k with
  | zero => simp [spreadFormer]
  | succ position ih =>
    rw [spreadFormer, foldl_raiseCell_getElem, ih (by omega)]
    rcases Nat.lt_trichotomy position c with hlt | rfl | hgt
    · rw [if_neg (by omega), if_neg (by omega), if_neg (by omega)]
    · simp
    · have hiff : c < position + 1 ↔ c < position := by omega
      simp [hiff, show position ≠ c by omega]

end Spreading

/-- A row of the second ring against what it stands for; the two topmost bins are never read. -/
def StandsFor (row : Spectrum α) (f : Nat → α) : Prop :=
  ∀ c ≤ 1022, max (F32.lit 0) (value row c) = f c

theorem StandsFor.le_iff {row : Spectrum α} {f : Nat → α} (h : StandsFor row f) (c : Nat)
    (hc : c ≤ 1022) (x : α) (hx : F32.lit 0 < x) : value row c ≤ x ↔ f c ≤ x := by
  rw [← h c hc, max_le_iff]
  exact ⟨fun hle => ⟨hx.le, hle⟩, fun hle => hle.2⟩

theorem StandsFor.lt_iff {row : Spectrum α} {f : Nat → α} (h : StandsFor row f) (c : Nat)
    (hc : c ≤ 1022) (x : α) (hx : F32.lit 0 < x) : value row c < x ↔ f c < x := by
  rw [← h c hc, max_lt_iff]
  exact ⟨fun hlt => ⟨hx, hlt⟩, fun hlt => hlt.2⟩

/-- The spectrum of a pass; before the run the ring holds zeros. -/
def spectrumOf (r : Nat → Spectrum α) (q : Int) : Spectrum α :=
  if 0 ≤ q then r q.toNat else Vector.replicate 1025 (F32.lit 0)

@[simp] theorem spectrumOf_natCast (r : Nat → Spectrum α) (p : Nat) : spectrumOf r p = r p := by
  simp [spectrumOf]

/-- The state after `n` passes over a run of spectra. -/
structure Inv (r : Nat → Spectrum α) (n : Nat) (this : SignatureGenerator α) : Prop where
  fftIndex : this.fftOutputsIndex = n % 256
  spreadIndex : this.spreadFftOutputsIndex = n % 256
  passes : this.numSpreadFftsDone = UInt32.ofNat n
  spectra : Holds Eq this.fftOutputs n (spectrumOf r)
  spread : Holds StandsFor this.spreadFftOutputs n (retainedBefore r n)

theorem start_inv (r : Nat → Spectrum α) (buffer : List Int16) :
    Inv r 0 (start buffer : SignatureGenerator α) where
  fftIndex := rfl
  spreadIndex := rfl
  passes := rfl
  spectra := by
    apply Holds.replicate
    intro q hq
    rw [spectrumOf, if_neg (by omega)]
  spread := by
    apply Holds.replicate
    intro q _ c hc
    rw [retainedBefore_zero, value_eq _ c (by omega)]
    simp

/-- A spectrum of the run read from the first ring. -/
theorem fftOutputs_ringSlot {r : Nat → Spectrum α} {n : Nat} {ring : Vector (Spectrum α) 256}
    (h : Holds Eq ring n (spectrumOf r)) (index : Nat) (hindex : index = n % 256) (p : Nat)
    (offset : Int) (hp : (p : Int) = n + offset) (hlo : -256 ≤ offset) (hhi : offset < 0) :
    ring[ringSlot index offset] = r p := by
  subst hindex
  have hslot : (ringSlot (n % 256) offset).val = slot 256 p := by rw [ringSlot_eq, hp]
  have hrow := h p (by omega) (by omega) (slot_lt 256 (by decide) _)
  rw [spectrumOf_natCast] at hrow
  simpa only [Fin.getElem_fin, hslot] using hrow

/-- A row of the second ring stands for the pass the offset leads to. -/
theorem spreadFftOutputs_ringSlot {r : Nat → Spectrum α} {n : Nat}
    {ring : Vector (Spectrum α) 256} (h : Holds StandsFor ring n (retainedBefore r n))
    (index : Nat) (hindex : index = n % 256) (q offset : Int)
    (hq : slot 256 (n + offset) = slot 256 q) (hlo : n - 256 ≤ q) (hhi : q + 6 < n) :
    StandsFor ring[ringSlot index offset] (retained r q) := by
  subst hindex
  have hslot : (ringSlot (n % 256) offset).val = slot 256 q := by rw [ringSlot_eq, hq]
  have hrow := h q (by omega) (by omega) (slot_lt 256 (by decide) _)
  intro c hc
  rw [← retainedBefore_eq_retained r n q c hhi, ← hrow c hc]
  simp only [Fin.getElem_fin, hslot]

/-- Raising the rows one, three and six back, once the newest row is written. -/
theorem spreadFormer_holds {r : Nat → Spectrum α} {n : Nat} {ring : Vector (Spectrum α) 256}
    (h : Holds StandsFor ring n (retainedBefore r n)) (newest : Spectrum α)
    (hnewest : ∀ c ≤ 1022, value newest c = spreadValue (r n) c) :
    Holds StandsFor (spreadFormer (ring.set (n % 256) newest) (n % 256) newest 1025 le_rfl)
      (n + 1) (retainedBefore r (n + 1)) := by
  apply Holds.succ
  · intro hs c hc
    have hset : (ring.set (n % 256) newest)[slot 256 n] = newest := by
      simp only [slot_natCast]
      exact Vector.getElem_set_self _
    rw [value_eq _ c (by omega), spreadFormer_getElem, hset, max_self, ite_self,
      ← value_eq newest c (by omega), hnewest c hc, retainedBefore_newest]
  · intro q hlo hhi hs c hc
    have hne : n % 256 ≠ slot 256 q := by
      intro he
      have := slot_inj 256 n q (by rw [slot_natCast, he]) (by omega) (by omega)
      omega
    have hset : (ring.set (n % 256) newest)[slot 256 q] = ring[slot 256 q] :=
      Vector.getElem_set_ne (by omega) hs hne
    have hformer : (∃ d ∈ ([1, 3, 6] : List Int), (ringSlot (n % 256) (-d)).val = slot 256 q) ↔
        q = n - 1 ∨ q = n - 3 ∨ q = n - 6 := by
      have hback : ∀ d : Int, 0 < d → d ≤ 6 →
          ((ringSlot (n % 256) (-d)).val = slot 256 q ↔ q = n - d) := by
        intro d hpos hd
        rw [ringSlot_eq]
        refine ⟨fun he => ?_, fun he => by rw [he, Int.sub_eq_add_neg]⟩
        have := slot_inj 256 _ q he (by omega) (by omega)
        omega
      simp [hback]
    have hrow := h q (by omega) hhi hs c hc
    rw [value_eq _ c (by omega)] at hrow ⊢
    rw [spreadFormer_getElem, hset, ← value_eq newest c (by omega), hnewest c hc,
      retainedBefore_succ r n q c hhi, ← hrow]
    by_cases hraised : q = n - 1 ∨ q = n - 3 ∨ q = n - 6
    · rw [if_pos ⟨hformer.mpr hraised, by omega⟩, if_pos hraised, max_assoc]
    · rw [if_neg fun h => hraised (hformer.mp h.1), if_neg hraised]

theorem storeSpectrum_spec {r : Nat → Spectrum α} {n : Nat} {this : SignatureGenerator α}
    (hindex : this.fftOutputsIndex = n % 256)
    (hring : Holds Eq this.fftOutputs n (spectrumOf r)) :
    ∃ ring, Holds Eq ring (n + 1) (spectrumOf r) ∧
      storeSpectrum this (r n) =
        some { this with fftOutputs := ring, fftOutputsIndex := (n + 1) % 256 } := by
  have hlt : n % 256 < 256 := Nat.mod_lt n (by decide)
  have hwrite := hring.write (r n) (spectrumOf_natCast r n).symm (slot_lt 256 (by decide) n)
  refine ⟨_, hwrite, ?_⟩
  simp [storeSpectrum, hlt, and_255, hindex]

/-- A pass of the spreading leaves in the second ring what every pass keeps by then. -/
theorem doPeakSpreading_spec {r : Nat → Spectrum α} {n : Nat} (this : SignatureGenerator α)
    (hfftIndex : this.fftOutputsIndex = (n + 1) % 256)
    (hfftRing : Holds Eq this.fftOutputs (n + 1) (spectrumOf r))
    (hindex : this.spreadFftOutputsIndex = n % 256)
    (hring : Holds StandsFor this.spreadFftOutputs n (retainedBefore r n)) :
    ∃ ring, Holds StandsFor ring (n + 1) (retainedBefore r (n + 1)) ∧
      doPeakSpreading this =
        some { this with
          spreadFftOutputs := ring
          spreadFftOutputsIndex := (n + 1) % 256 } := by
  have hlt : n % 256 < 256 := Nat.mod_lt n (by decide)
  have hlatest : this.fftOutputs[ringSlot this.fftOutputsIndex (-1)] = r n :=
    fftOutputs_ringSlot (n := n + 1) (by exact_mod_cast hfftRing) _ hfftIndex n (-1) (by omega)
      (by omega) (by omega)
  have hnewest : ∀ c ≤ 1022,
      value (spreadPositions (r n) 1023 (by decide)) c = spreadValue (r n) c := by
    intro c hc
    rw [value_eq _ c (by omega), spreadPositions_getElem, if_pos (by omega)]
  refine ⟨_, spreadFormer_holds hring _ hnewest, ?_⟩
  simp [doPeakSpreading, hlt, hlatest, and_255, hindex]

section Reading

variable {r : Nat → Spectrum α} {p : Nat} {this : SignatureGenerator α}

theorem fftMinus46_eq (h : Inv r (p + 46) this) : fftMinus46 this = r p :=
  fftOutputs_ringSlot h.spectra _ h.fftIndex p (-46) (by omega) (by omega) (by omega)

theorem fftMinus49_standsFor (h : Inv r (p + 46) this) :
    StandsFor (fftMinus49 this) (retained r (p - 3)) := by
  apply spreadFftOutputs_ringSlot h.spread _ h.spreadIndex
  · congr 1
    omega
  · omega
  · omega

/-- The pass, counted from the one examined, an offset of the last loop leads to. -/
def otherPass (otherOffset : Int) : Int :=
  if otherOffset < 0 then otherOffset + 46 else otherOffset - 210

theorem otherPasses_perm : (otherOffsets.map otherPass).Perm adjacentPasses := by decide

theorem otherFft_standsFor (h : Inv r (p + 46) this) (otherOffset : Int)
    (ho : otherOffset ∈ otherOffsets) :
    StandsFor (this.spreadFftOutputs.get (ringSlot this.spreadFftOutputsIndex otherOffset))
      (retained r (p + otherPass otherOffset)) := by
  have hbounds : -53 ≤ otherOffset ∧ otherOffset ≤ -45 ∨ 165 ≤ otherOffset ∧ otherOffset ≤ 249 := by
    simp only [otherOffsets, List.mem_cons, List.not_mem_nil, or_false] at ho
    omega
  rw [otherPass]
  apply spreadFftOutputs_ringSlot h.spread _ h.spreadIndex
  · unfold slot
    omega
  · omega
  · omega

theorem maxNeighborInFftMinus49_eq (b : Nat) (hlo : 10 ≤ b) (hhi : b ≤ 1014) :
    maxNeighborInFftMinus49 this b =
      some (largest (F32.lit 0) (fun o : Int => value (fftMinus49 this) (b + o).toNat)
        neighborOffsets) := by
  apply foldlM_max
  intro o ho
  have hbounds := neighborOffsets_bounds o ho
  rw [asUsize_of_nonneg _ (by omega) (by omega), getElem?_eq_value _ _ (by omega)]

theorem maxNeighborInOtherAdjacentFfts_eq (b : Nat) (hlo : 10 ≤ b) (hhi : b ≤ 1014) (m : α) :
    maxNeighborInOtherAdjacentFfts this b m =
      some (largest m (fun o =>
        value this.spreadFftOutputs[ringSlot this.spreadFftOutputsIndex o] (b - 1))
        otherOffsets) := by
  apply foldlM_max
  intro o _
  exact getElem?_eq_value _ _ (by omega)

/-- The nested tests on a bin decide whether it is a peak. -/
theorem isPeak_eq (h : Inv r (p + 46) this) (b : Nat) (hlo : 10 ≤ b) (hhi : b ≤ 1014) :
    isPeak this b = some (decide (IsPeak r p b)) := by
  have hrow := fftMinus49_standsFor h
  have hx := getElem?_eq_value (fftMinus46 this) b (by omega)
  have hy := getElem?_eq_value (fftMinus49 this) (b - 1) (by omega)
  rw [fftMinus46_eq h] at hx
  simp only [isPeak, fftMinus46_eq h, hx, hy, Option.bind_eq_bind, Option.bind_some,
    maxNeighborInFftMinus49_eq b hlo hhi, maxNeighborInOtherAdjacentFfts_eq b hlo hhi]
  by_cases hlarge : F32.lit (1 / 64) ≤ value (r p) b
  · have hpos : F32.lit 0 < value (r p) b :=
      F32.zero_lt_floor.trans (F32.floor_lt_peak.trans_le hlarge)
    have hbefore := hrow.le_iff (b - 1) (by omega) _ hpos
    have hneighbors : largest (F32.lit 0) (fun o : Int => value (fftMinus49 this) (b + o).toNat)
        neighborOffsets < value (r p) b ↔
        ∀ o ∈ neighborOffsets, retained r (p - 3) (b + o).toNat < value (r p) b := by
      rw [largest_lt_iff, and_iff_right hpos]
      refine forall₂_congr fun o ho => ?_
      have hbounds := neighborOffsets_bounds o ho
      exact hrow.lt_iff _ (by omega) _ hpos
    have hothers : (∀ o ∈ otherOffsets,
        value this.spreadFftOutputs[ringSlot this.spreadFftOutputsIndex o] (b - 1) <
          value (r p) b) ↔
        ∀ d ∈ adjacentPasses, retained r (p + d) (b - 1) < value (r p) b := by
      simp only [← otherPasses_perm.mem_iff, List.forall_mem_map]
      refine forall₂_congr fun o ho => ?_
      exact (otherFft_standsFor h o ho).lt_iff _ (by omega) _ hpos
    by_cases hy' : value (fftMinus49 this) (b - 1) ≤ value (r p) b
    · rw [if_pos ⟨hlarge, hy'⟩]
      by_cases hm : largest (F32.lit 0) (fun o : Int => value (fftMinus49 this) (b + o).toNat)
          neighborOffsets < value (r p) b
      · rw [if_pos hm]
        refine congrArg some (decide_eq_decide.mpr ?_)
        rw [largest_lt_iff, and_iff_right hm, hothers]
        exact ⟨fun ho => ⟨hlarge, hbefore.mp hy', hneighbors.mp hm, ho⟩, fun hp => hp.2.2.2⟩
      · rw [if_neg hm, decide_eq_false fun hp => hm (hneighbors.mpr hp.2.2.1)]
        rfl
    · rw [if_neg fun hc => hy' hc.2, decide_eq_false fun hp => hy' (hbefore.mpr hp.2.1)]
      rfl
  · rw [if_neg fun hc => hlarge hc.1, decide_eq_false fun hp => hlarge hp.1]
    rfl

end Reading

end SpreadRings
