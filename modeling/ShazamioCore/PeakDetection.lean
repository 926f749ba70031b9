import Mathlib
import ShazamioCore.Algorithm

/-!
# What a peak is

The search for peaks restated over the whole run of spectra, with no ring and no loop:
pass `p` has a peak at a bin when its value there stands above what the passes near it
left behind. A pass `q` ends up with the largest of the spread spectra of the passes
`q`, `q + 1`, `q + 3` and `q + 6`; those before the run count for nothing.
-/
namespace PeakDetection

open Algorithm

section Largest

variable {α β : Type} [LinearOrder α]

def largest (start : α) (f : β → α) (l : List β) : α := l.foldl (fun m j => max m (f j)) start

theorem largest_le_iff (start x : α) (f : β → α) (l : List β) :
    largest start f l ≤ x ↔ start ≤ x ∧ ∀ j ∈ l, f j ≤ x := by
  rw [largest]
  induction l generalizing start with
  | nil => simp
  | cons j l ih =>
    simp only [List.foldl_cons, ih, max_le_iff, List.forall_mem_cons, and_assoc]

theorem largest_lt_iff (start x : α) (f : β → α) (l : List β) :
    largest start f l < x ↔ start < x ∧ ∀ j ∈ l, f j < x := by
  rw [largest]
  induction l generalizing start with
  | nil => simp
  | cons j l ih =>
    simp only [List.foldl_cons, ih, max_lt_iff, List.forall_mem_cons, and_assoc]

/-- A loop that keeps the largest value it reads, every read in bounds. -/
theorem foldlM_max (start : α) (f : β → α) (read : β → Option α) (l : List β)
    (h : ∀ j ∈ l, read j = some (f j)) :
    l.foldlM (fun m j => do let x ← read j; return max m x) start = some (largest start f l) := by
  rw [largest]
  induction l generalizing start with
  | nil => rfl
  | cons j l ih =>
    have hj := h j List.mem_cons_self
    have htail := ih (max start (f j)) fun i hi => h i (List.mem_cons_of_mem j hi)
    simpa [List.foldlM_cons, hj] using htail

end Largest

variable {α : Type} [LinearOrder α] [F32 α]

def value (spectrum : Spectrum α) (c : Nat) : α := spectrum[c]?.getD (F32.lit 0)

theorem value_eq (spectrum : Spectrum α) (c : Nat) (h : c < 1025) :
    value spectrum c = spectrum[c] := by
  simp [value, Vector.getElem?_eq_getElem h]

theorem getElem?_eq_value (spectrum : Spectrum α) (c : Nat) (h : c < 1025) :
    spectrum[c]? = some (value spectrum c) := by
  rw [value_eq spectrum c h, Vector.getElem?_eq_getElem h]

/-- A spectrum spread over frequencies: the largest of a bin and the two above it. -/
def spreadValue (spectrum : Spectrum α) (c : Nat) : α :=
  max (max (value spectrum c) (value spectrum (c + 1))) (value spectrum (c + 2))

theorem spreadValue_le_iff (spectrum : Spectrum α) (c : Nat) (x : α) :
    spreadValue spectrum c ≤ x ↔
      value spectrum c ≤ x ∧ value spectrum (c + 1) ≤ x ∧ value spectrum (c + 2) ≤ x := by
  simp only [spreadValue, max_le_iff, and_assoc]

theorem spreadValue_lt_iff (spectrum : Spectrum α) (c : Nat) (x : α) :
    spreadValue spectrum c < x ↔
      value spectrum c < x ∧ value spectrum (c + 1) < x ∧ value spectrum (c + 2) < x := by
  simp only [spreadValue, max_lt_iff, and_assoc]

/-- How many passes after a pass come those whose spread spectra it keeps. -/
def keptOffsets : List Int := [0, 1, 3, 6]

def keptPasses (q : Int) : List Int := (keptOffsets.map (q + ·)).filter (0 ≤ ·)

/-- What pass `q` keeps at a bin in the end. -/
def retained (r : Nat → Spectrum α) (q : Int) (c : Nat) : α :=
  largest (F32.lit 0) (fun j => spreadValue (r j.toNat) c) (keptPasses q)

/-- What pass `q` keeps at a bin once `n` passes are done. -/
def retainedBefore (r : Nat → Spectrum α) (n : Nat) (q : Int) (c : Nat) : α :=
  largest (F32.lit 0) (fun j => spreadValue (r j.toNat) c) ((keptPasses q).filter (· < (n : Int)))

theorem mem_keptPasses (q j : Int) :
    j ∈ keptPasses q ↔ 0 ≤ j ∧ (j = q ∨ j = q + 1 ∨ j = q + 3 ∨ j = q + 6) := by
  simp only [keptPasses, keptOffsets, List.mem_filter, List.mem_map, List.mem_cons,
    List.not_mem_nil, or_false, exists_eq_or_imp, exists_eq_left, decide_eq_true_eq, add_zero]
  omega

theorem retained_lt_iff (r : Nat → Spectrum α) (q : Int) (c : Nat) (x : α) :
    retained r q c < x ↔
      F32.lit 0 < x ∧ ∀ j ∈ keptPasses q, spreadValue (r j.toNat) c < x :=
  largest_lt_iff _ _ _ _

theorem retained_le_iff (r : Nat → Spectrum α) (q : Int) (c : Nat) (x : α) :
    retained r q c ≤ x ↔
      F32.lit 0 ≤ x ∧ ∀ j ∈ keptPasses q, spreadValue (r j.toNat) c ≤ x :=
  largest_le_iff _ _ _ _

theorem retainedBefore_le_iff (r : Nat → Spectrum α) (n : Nat) (q : Int) (c : Nat) (x : α) :
    retainedBefore r n q c ≤ x ↔
      F32.lit 0 ≤ x ∧ ∀ j ∈ keptPasses q, j < n → spreadValue (r j.toNat) c ≤ x := by
  simp only [retainedBefore, largest_le_iff, List.mem_filter, decide_eq_true_eq, and_imp]

theorem retainedBefore_eq_retained (r : Nat → Spectrum α) (n : Nat) (q : Int) (c : Nat)
    (h : q + 6 < n) : retainedBefore r n q c = retained r q c := by
  rw [retainedBefore, retained]
  rw [List.filter_eq_self.mpr]
  intro j hj
  rw [mem_keptPasses] at hj
  simp only [decide_eq_true_eq]
  omega

/-- Nothing is kept before the run. -/
theorem retainedBefore_zero (r : Nat → Spectrum α) (q : Int) (c : Nat) :
    retainedBefore r 0 q c = F32.lit 0 := by
  have hnil : (keptPasses q).filter (· < ((0 : Nat) : Int)) = [] := by
    rw [List.filter_eq_nil_iff]
    intro j hj
    rw [mem_keptPasses] at hj
    simp only [decide_eq_true_eq]
    omega
  rw [retainedBefore, hnil]
  rfl

/-- The newest pass keeps its own spread spectrum. -/
theorem retainedBefore_newest (r : Nat → Spectrum α) (n c : Nat) :
    retainedBefore r (n + 1) n c = max (F32.lit 0) (spreadValue (r n) c) := by
  apply eq_of_forall_ge_iff
  intro x
  rw [retainedBefore_le_iff, max_le_iff]
  constructor
  · rintro ⟨hzero, h⟩
    have hnewest := h n (by rw [mem_keptPasses]; omega) (by omega)
    exact ⟨hzero, by simpa using hnewest⟩
  · rintro ⟨hzero, h⟩
    refine ⟨hzero, fun j hj hlt => ?_⟩
    rw [mem_keptPasses] at hj
    obtain rfl : j = n := by omega
    simpa using h

/-- A former pass is raised by the newest one, if it is one, three or six back. -/
theorem retainedBefore_succ (r : Nat → Spectrum α) (n : Nat) (q : Int) (c : Nat) (hq : q < n) :
    retainedBefore r (n + 1) q c =
      if q = n - 1 ∨ q = n - 3 ∨ q = n - 6 then
        max (retainedBefore r n q c) (spreadValue (r n) c)
      else retainedBefore r n q c := by
  apply eq_of_forall_ge_iff
  intro x
  split
  · rename_i hraised
    rw [max_le_iff, retainedBefore_le_iff, retainedBefore_le_iff]
    constructor
    · rintro ⟨hzero, h⟩
      refine ⟨⟨hzero, fun j hj hlt => h j hj (by omega)⟩, ?_⟩
      have hnewest := h n (by rw [mem_keptPasses]; omega) (by omega)
      simpa using hnewest
    · rintro ⟨⟨hzero, h⟩, hnewest⟩
      refine ⟨hzero, fun j hj hlt => ?_⟩
      by_cases hj' : j < n
      · exact h j hj hj'
      · obtain rfl : j = n := by omega
        simpa using hnewest
  · rename_i hraised
    rw [retainedBefore_le_iff, retainedBefore_le_iff]
    refine and_congr_right fun _ => forall₂_congr fun j hj => ?_
    rw [mem_keptPasses] at hj
    constructor
    · intro h hlt
      exact h (by omega)
    · intro h hlt
      exact h (by omega)

/-- The passes, counted from the one examined, that a peak must stand above one bin below. -/
def adjacentPasses : List Int :=
  [-45, -38, -31, -24, -17, -10, -7, 1, 4, 11, 18, 25, 32, 39]

def IsPeak (r : Nat → Spectrum α) (p b : Nat) : Prop :=
  F32.lit (1 / 64) ≤ value (r p) b ∧
    retained r (p - 3) (b - 1) ≤ value (r p) b ∧
    (∀ o ∈ neighborOffsets, retained r (p - 3) (b + o).toNat < value (r p) b) ∧
    ∀ d ∈ adjacentPasses, retained r (p + d) (b - 1) < value (r p) b

instance (r : Nat → Spectrum α) (p b : Nat) : Decidable (IsPeak r p b) := by
  rw [IsPeak]
  infer_instance

def peakBins (r : Nat → Spectrum α) (p : Nat) : List Nat :=
  binPositions.filter fun b => decide (IsPeak r p b)

theorem mem_binPositions (b : Nat) : b ∈ binPositions ↔ 10 ≤ b ∧ b ≤ 1014 := by
  simp only [binPositions, List.mem_range'_1]
  omega

theorem mem_peakBins (r : Nat → Spectrum α) (p b : Nat) :
    b ∈ peakBins r p ↔ (10 ≤ b ∧ b ≤ 1014) ∧ IsPeak r p b := by
  simp only [peakBins, List.mem_filter, mem_binPositions, decide_eq_true_eq]

theorem neighborOffsets_bounds (o : Int) (ho : o ∈ neighborOffsets) : -10 ≤ o ∧ o ≤ 8 := by
  simp only [neighborOffsets, List.mem_cons, List.not_mem_nil, or_false] at ho
  omega

/-- The neighbours, each with the two bins above it, cover ten bins on both sides. -/
theorem neighborOffsets_cover (b c : Nat) (hlo : b ≤ c + 10) (hhi : c ≤ b + 10) (hne : c ≠ b) :
    ∃ o ∈ neighborOffsets, (b + o : Int) ≤ c ∧ (c : Int) ≤ b + o + 2 := by
  simp only [neighborOffsets, List.mem_cons, List.not_mem_nil, or_false, exists_eq_or_imp,
    exists_eq_left]
  omega

/-- A peak is larger than every value up to ten bins away in its own pass. -/
theorem IsPeak.value_lt {r : Nat → Spectrum α} {p b : Nat} (h : IsPeak r p b) (c : Nat)
    (hlo : b ≤ c + 10) (hhi : c ≤ b + 10) (hne : c ≠ b) (hb : 10 ≤ b) :
    value (r p) c < value (r p) b := by
  obtain ⟨-, -, hneighbors, -⟩ := h
  obtain ⟨o, ho, hfrom, hto⟩ := neighborOffsets_cover b c hlo hhi hne
  have hbounds := neighborOffsets_bounds o ho
  have hretained := (retained_lt_iff r _ _ _).mp (hneighbors o ho)
  have hspread := hretained.2 p (by rw [mem_keptPasses]; omega)
  rw [Int.toNat_natCast, spreadValue_lt_iff] at hspread
  rcases (by omega : c = (b + o).toNat ∨ c = (b + o).toNat + 1 ∨ c = (b + o).toNat + 2) with
    hc | hc | hc
  · exact hc ▸ hspread.1
  · exact hc ▸ hspread.2.1
  · exact hc ▸ hspread.2.2

/-- Two peaks of one pass lie at least eleven bins apart. -/
theorem peakBins_apart {r : Nat → Spectrum α} {p b b' : Nat} (hb : b ∈ peakBins r p)
    (hb' : b' ∈ peakBins r p) (hlt : b < b') : b + 11 ≤ b' := by
  obtain ⟨⟨hlo, -⟩, h⟩ := (mem_peakBins r p b).mp hb
  obtain ⟨⟨hlo', -⟩, h'⟩ := (mem_peakBins r p b').mp hb'
  by_contra hnear
  have hbelow := h.value_lt b' (by omega) (by omega) (by omega) hlo
  have habove := h'.value_lt b (by omega) (by omega) (by omega) hlo'
  exact lt_asymm hbelow habove

end PeakDetection
