import Mathlib
import ShazamioCore.GeneratorRun
import ShazamioCore.Interpolation

/-!
# Streaming against the ring-free search

A run over `n` spectra refines the search that has the whole run before it: the passes
up to `n - 46` are searched once each under their own numbers, every bin is judged as the
definition of a peak says, and each band ends with the landmarks of its own frequencies.
-/
namespace StreamingPeaks

open MachineInt SignatureFormat Algorithm PeakDetection SpreadRings LoopRules GeneratorRun

variable {α : Type} [LinearOrder α] [F32 α]

section Bands

def frequencyOf (peak : FrequencyPeak) : Int :=
  (peak.correctedPeakFrequencyBin.toNat * 125 / 1024 : Nat)

def bandRange : FrequencyBand → Int × Int
  | ._250_520 => (250, 519)
  | ._520_1450 => (520, 1449)
  | ._1450_3500 => (1450, 3499)
  | ._3500_5500 => (3500, 5500)

def InBand (band : FrequencyBand) (f : Int) : Prop :=
  (bandRange band).1 ≤ f ∧ f ≤ (bandRange band).2

instance (band : FrequencyBand) (f : Int) : Decidable (InBand band f) := by
  rw [InBand]
  infer_instance

theorem frequencyBand_eq_some_iff (f : Int) (band : FrequencyBand) :
    frequencyBand f = some band ↔ InBand band f := by
  rw [frequencyBand, InBand]
  split_ifs with h₁ h₂ h₃ h₄
  all_goals cases band
  all_goals simp [bandRange]
  all_goals omega

/-- The bands part the range they cover. -/
theorem existsUnique_band (f : Int) : (∃! band, InBand band f) ↔ 250 ≤ f ∧ f ≤ 5500 := by
  constructor
  · rintro ⟨band, hband, -⟩
    cases band <;> simp only [InBand, bandRange] at hband <;> omega
  · intro hf
    obtain ⟨band, hband⟩ : ∃ band, frequencyBand f = some band := by
      rw [frequencyBand]
      split_ifs
      all_goals first | exact ⟨_, rfl⟩ | omega
    refine ⟨band, (frequencyBand_eq_some_iff f band).mp hband, fun band' hband' => ?_⟩
    have hband'' := (frequencyBand_eq_some_iff f band').mpr hband'
    exact Option.some.inj (hband''.symm.trans hband)

theorem frequencyHz_eq (correctedPeakFrequencyBin : UInt16) :
    frequencyHz α correctedPeakFrequencyBin =
      (correctedPeakFrequencyBin.toNat * 125 / 1024 : Nat) := by
  have hlt := correctedPeakFrequencyBin.toNat_lt
  rw [frequencyHz, F32.trunc_scaled _ hlt]
  apply saturateI32_of_mem
  constructor
  · omega
  · omega

end Bands

section Recording

def landmarkIn (o : Overflow) (num : UInt32) (spectrum : Spectrum α) (band : FrequencyBand)
    (b : Nat) : Option FrequencyPeak :=
  (landmark o num spectrum b).filter fun peak => InBand band (frequencyOf peak)

/-- The landmarks of pass `p` in a band, bins ascending. -/
def landmarksIn (o : Overflow) (r : Nat → Spectrum α) (band : FrequencyBand) (p : Nat) :
    List FrequencyPeak :=
  (peakBins r p).filterMap (landmarkIn o (UInt32.ofNat (p + 46)) (r p) band)

/-- What a run of `n` passes puts into a band, passes ascending. -/
def bandPeaks (o : Overflow) (r : Nat → Spectrum α) (n : Nat) (band : FrequencyBand) :
    List FrequencyPeak :=
  (examined n).flatMap (landmarksIn o r band)

/-- A band's list, absent until it holds something, with more put at its end. -/
def appended (old : Option (List FrequencyPeak)) (new : List FrequencyPeak) :
    Option (List FrequencyPeak) :=
  if new = [] then old else some (old.getD [] ++ new)

@[simp] theorem appended_nil (old : Option (List FrequencyPeak)) : appended old [] = old := rfl

theorem appended_append (old : Option (List FrequencyPeak)) (a b : List FrequencyPeak) :
    appended (appended old a) b = appended old (a ++ b) := by
  cases a with
  | nil => rfl
  | cons x a =>
    cases b with
    | nil => simp [appended]
    | cons y b => simp [appended]

/-- Steps that each put something at a band's end put it all there in order. -/
theorem lookup_foldlM {β : Type} (step : Bands → β → Option Bands) (band : FrequencyBand)
    (f : β → List FrequencyPeak)
    (h : ∀ bands bands' b, step bands b = some bands' →
      bands'.lookup band = appended (bands.lookup band) (f b))
    (l : List β) (bands bands' : Bands) (hl : l.foldlM step bands = some bands') :
    bands'.lookup band = appended (bands.lookup band) (l.flatMap f) := by
  induction l generalizing bands with
  | nil =>
    obtain rfl : bands = bands' := by simpa using hl
    rfl
  | cons b l ih =>
    rw [List.foldlM_cons, Option.bind_eq_bind, Option.bind_eq_some_iff] at hl
    obtain ⟨bands₁, hb, htail⟩ := hl
    rw [ih bands₁ htail, h bands bands₁ b hb, appended_append, List.flatMap_cons]

/-- A peak recorded is appended to its own band and to no other. -/
theorem lookup_recordPeak {o : Overflow} {num : UInt32} {spectrum : Spectrum α}
    {bands bands' : Bands} {b : Nat} (h : recordPeak o num spectrum bands b = some bands')
    (band : FrequencyBand) :
    bands'.lookup band =
      appended (bands.lookup band) (landmarkIn o num spectrum band b).toList := by
  rw [recordPeak, Option.bind_eq_bind, Option.bind_eq_some_iff] at h
  obtain ⟨peak, hpeak, hpush⟩ := h
  have hfrequency : frequencyHz α peak.correctedPeakFrequencyBin = frequencyOf peak :=
    frequencyHz_eq _
  have hin := frequencyBand_eq_some_iff (frequencyOf peak) band
  rw [hfrequency] at hpush
  cases hband : frequencyBand (frequencyOf peak) with
  | none =>
    obtain rfl : bands = bands' := by simpa [hband] using hpush
    have hout : ¬InBand band (frequencyOf peak) := by simpa [hband] using hin
    simp [landmarkIn, hpeak, hout, Option.filter]
  | some band' =>
    obtain rfl : pushPeak bands band' peak = bands' := by simpa [hband] using hpush
    rw [hband, Option.some.injEq] at hin
    by_cases heq : band' = band
    · subst heq
      simp [landmarkIn, hpeak, pushPeak, ← hin, appended, Option.filter]
    · simp [landmarkIn, hpeak, pushPeak, ← hin, heq, AList.lookup_insert_ne (Ne.symm heq),
        Option.filter]

theorem recordPeak_eq_none_iff (o : Overflow) (num : UInt32) (spectrum : Spectrum α)
    (bands : Bands) (b : Nat) :
    recordPeak o num spectrum bands b = none ↔ landmark o num spectrum b = none := by
  rw [recordPeak]
  cases landmark o num spectrum b with
  | none => simp
  | some peak =>
    simp only [Option.bind_eq_bind, Option.bind_some, reduceCtorEq, iff_false]
    split <;> simp

theorem lookup_recordPass {o : Overflow} {r : Nat → Spectrum α} {bands bands' : Bands} {p : Nat}
    (h : recordPass o r bands p = some bands') (band : FrequencyBand) :
    bands'.lookup band = appended (bands.lookup band) (landmarksIn o r band p) := by
  rw [landmarksIn, List.filterMap_eq_flatMap_toList]
  exact lookup_foldlM (recordPeak o (UInt32.ofNat (p + 46)) (r p)) band
    (fun b => (landmarkIn o (UInt32.ofNat (p + 46)) (r p) band b).toList)
    (fun _ _ _ hb => lookup_recordPeak hb band) (peakBins r p) bands bands' h

/-- What a run records in a band: nothing at all, or the band's landmarks. -/
theorem lookup_record {o : Overflow} {r : Nat → Spectrum α} {n : Nat} {bands : Bands}
    (h : record o r n = some bands) (band : FrequencyBand) :
    bands.lookup band =
      if bandPeaks o r n band = [] then none else some (bandPeaks o r n band) := by
  have hfold := lookup_foldlM (recordPass o r) band (landmarksIn o r band)
    (fun _ _ _ hp => lookup_recordPass hp band) (examined n) ∅ bands h
  simpa [appended, bandPeaks] using hfold

theorem record_eq_none_iff (o : Overflow) (r : Nat → Spectrum α) (n : Nat) :
    record o r n = none ↔
      ∃ p ∈ examined n, ∃ b ∈ peakBins r p, landmark o (UInt32.ofNat (p + 46)) (r p) b = none := by
  refine foldlM_eq_none_iff (recordPass o r) _ (fun bands p => ?_) (examined n) ∅
  exact foldlM_eq_none_iff (recordPeak o (UInt32.ofNat (p + 46)) (r p)) _
    (recordPeak_eq_none_iff o _ _) (peakBins r p) bands

theorem le_toNat_passes {p : Nat} (hp : p + 46 < 2 ^ 32) :
    (46 : UInt32).toNat ≤ (UInt32.ofNat (p + 46)).toNat := by
  rw [UInt32.toNat_ofNat', Nat.mod_eq_of_lt hp]
  exact Nat.le_add_left 46 p

theorem landmark_fftPassNumber {o : Overflow} {spectrum : Spectrum α} {p b : Nat}
    {peak : FrequencyPeak} (hp : p + 46 < 2 ^ 32)
    (h : landmark o (UInt32.ofNat (p + 46)) spectrum b = some peak) :
    peak.fftPassNumber.toNat = p := by
  simp only [landmark, Option.bind_eq_bind, Option.bind_eq_some_iff, Option.pure_def,
    Option.some.injEq] at h
  obtain ⟨fftPassNumber, hsub, _, _, _, _, _, _, _, _, _, _, rfl⟩ := h
  rw [subU32_eq o _ _ _ hsub, toNat_sub_fits _ _ (le_toNat_passes hp), UInt32.toNat_ofNat',
    Nat.mod_eq_of_lt hp]
  rfl

end Recording

def searchedState (o : Overflow) (r : Nat → Spectrum α) (buffer : List Int16) (p : Nat) :
    Option (SignatureGenerator α) := do
  let this ← run o r buffer (p + 45)
  advance o (r (p + 45)) this

theorem run_eq_searched (o : Overflow) (r : Nat → Spectrum α) (buffer : List Int16) (p : Nat) :
    run o r buffer (p + 46) = (searchedState o r buffer p).bind fun this =>
      if 46 ≤ this.numSpreadFftsDone then doPeakRecognition o this else some this := by
  simp only [run_succ o r buffer (p + 45), searchedState, pass_eq_advance, Option.bind_eq_bind,
    Option.bind_assoc]

/-- What it is for a run over `n` spectra to do the ring-free search. -/
structure Refines (o : Overflow) (r : Nat → Spectrum α) (buffer : List Int16) (n : Nat) : Prop where
  /-- Each pass up to `n - 46` is searched when the one 46 after it would begin. -/
  searches : ∀ p, p + 46 ≤ n →
    run o r buffer (p + 46) = (searchedState o r buffer p).bind (doPeakRecognition o)
  /-- A search goes under the number of its pass and tells the peaks of that pass. -/
  examines : ∀ p, p + 46 ≤ n → ∀ this, searchedState o r buffer p = some this →
    subU32 o this.numSpreadFftsDone 46 = some (UInt32.ofNat p) ∧
      ∀ b ∈ binPositions, isPeak this b = some (decide (IsPeak r p b))
  /-- Nothing stops the run but the arithmetic of a found peak. -/
  stops : run o r buffer n = none ↔
    ∃ p, p + 46 ≤ n ∧ ∃ b ∈ peakBins r p, landmark o (UInt32.ofNat (p + 46)) (r p) b = none
  /-- Each band holds the landmarks of its frequencies, passes and bins ascending. -/
  records : ∀ this, run o r buffer n = some this → ∀ band,
    this.signature.frequencyBandToSoundPeaks.lookup band =
      if bandPeaks o r n band = [] then none else some (bandPeaks o r n band)
  numbers : ∀ p, p + 46 ≤ n → ∀ b peak,
    landmark o (UInt32.ofNat (p + 46)) (r p) b = some peak → peak.fftPassNumber.toNat = p
  /-- The bands part the frequencies from 250 to 5500 Hz. -/
  bands : ∀ f, (∃! band, InBand band f) ↔ 250 ≤ f ∧ f ≤ 5500

theorem searchedState_inv {o : Overflow} {r : Nat → Spectrum α} {buffer : List Int16} {p : Nat}
    {this : SignatureGenerator α} (h : searchedState o r buffer p = some this) :
    Inv r (p + 46) this := by
  rw [searchedState, Option.bind_eq_bind, Option.bind_eq_some_iff] at h
  obtain ⟨before, hrun, hadvance⟩ := h
  obtain ⟨hbefore, hn⟩ := run_inv hrun
  have hfits := advance_fits hbefore hn hadvance
  obtain ⟨fftOutputs, spreadFftOutputs, hinv, heq⟩ := advance_spec hbefore o hfits
  obtain rfl := Option.some.inj (heq.symm.trans hadvance)
  exact hinv

/-- A run of passes that its counter can hold does the ring-free search. -/
theorem run_refines (o : Overflow) (r : Nat → Spectrum α) (buffer : List Int16) (n : Nat)
    (hn : n < 2 ^ 32) : Refines o r buffer n := by
  obtain ⟨-, hsignature⟩ := run_spec o r buffer n hn
  constructor
  case searches =>
    intro p hp
    rw [run_eq_searched]
    refine Option.bind_congr fun this hthis => ?_
    rw [(searchedState_inv hthis).passes]
    exact if_pos (UInt32.le_iff_toNat_le.mpr (le_toNat_passes (by omega)))
  case examines =>
    intro p hp this hthis
    have hinv := searchedState_inv hthis
    rw [hinv.passes]
    refine ⟨?_, fun b hb => ?_⟩
    · rw [subU32_fits o _ _ (le_toNat_passes (by omega)), UInt32.ofNat_add]
      congr 1
      exact add_sub_cancel_right _ _
    · rw [mem_binPositions] at hb
      exact isPeak_eq hinv b hb.1 hb.2
  case stops =>
    have hnone : run o r buffer n = none ↔ record o r n = none := by
      rw [← Option.map_eq_none_iff (f := (·.signature)), hsignature, Option.map_eq_none_iff]
    simp only [hnone, record_eq_none_iff, mem_examined]
  case records =>
    intro this hthis band
    rw [hthis, Option.map_some] at hsignature
    obtain ⟨bands, hbands, heq⟩ := Option.map_eq_some_iff.mp hsignature.symm
    rw [← heq]
    exact lookup_record hbands band
  case numbers =>
    intro p hp b peak hpeak
    exact landmark_fftPassNumber (by omega) hpeak
  case bands => exact existsUnique_band

section Spike

noncomputable def spike (a : Nat) (p : Nat) : Spectrum ℝ :=
  Vector.ofFn fun c => if p = a ∧ c.val = 100 then 2 else 1 / 10 ^ 10

theorem value_spike (a p c : Nat) (hc : c < 1025) :
    value (spike a p) c = if p = a ∧ c = 100 then 2 else 1 / 10 ^ 10 := by
  simp [value_eq _ c hc, spike]

theorem spreadValue_spike_lt (a p c : Nat) (hc : c ≤ 1022) (h : p ≠ a ∨ c < 98 ∨ 100 < c) :
    spreadValue (spike a p) c < 2 := by
  rw [spreadValue_lt_iff, value_spike _ _ _ (by omega), value_spike _ _ _ (by omega),
    value_spike _ _ _ (by omega), if_neg (by omega), if_neg (by omega), if_neg (by omega)]
  norm_num

theorem isPeak_spike (a p b : Nat) (hlo : 10 ≤ b) (hhi : b ≤ 1014) :
    IsPeak (spike a) p b ↔ p = a ∧ b = 100 := by
  constructor
  · intro h
    have hlarge := h.1
    rw [value_spike _ _ _ (by omega)] at hlarge
    by_contra hne
    rw [if_neg hne] at hlarge
    norm_num [F32.lit] at hlarge
  · rintro ⟨rfl, rfl⟩
    have hzero : F32.lit 0 < (2 : ℝ) := by norm_num [F32.lit]
    have hvalue : value (spike p p) 100 = 2 := by simp [value_spike]
    have hle : ∀ j c, c ≤ 1022 → spreadValue (spike p j) c ≤ 2 := by
      intro j c hc
      rw [spreadValue_le_iff, value_spike _ _ _ (by omega), value_spike _ _ _ (by omega),
        value_spike _ _ _ (by omega)]
      refine ⟨?_, ?_, ?_⟩ <;> split <;> norm_num
    rw [IsPeak, hvalue]
    refine ⟨by norm_num [F32.lit], ?_, fun o ho => ?_, fun d hd => ?_⟩
    · rw [retained_le_iff]
      exact ⟨hzero.le, fun j hj => hle _ _ (by decide)⟩
    · rw [retained_lt_iff]
      refine ⟨hzero, fun j hj => spreadValue_spike_lt _ _ _ ?_ (Or.inr ?_)⟩
      · have := neighborOffsets_bounds o ho
        omega
      · simp only [neighborOffsets, List.mem_cons, List.not_mem_nil, or_false] at ho
        omega
    · rw [retained_lt_iff]
      refine ⟨hzero, fun j hj => spreadValue_spike_lt _ _ _ (by decide) (Or.inl ?_)⟩
      rw [mem_keptPasses] at hj
      simp only [adjacentPasses, List.mem_cons, List.not_mem_nil, or_false] at hd
      omega

theorem mem_peakBins_spike (a p b : Nat) : b ∈ peakBins (spike a) p ↔ p = a ∧ b = 100 := by
  rw [mem_peakBins]
  constructor
  · rintro ⟨⟨hlo, hhi⟩, h⟩
    exact (isPeak_spike a p b hlo hhi).mp h
  · rintro ⟨rfl, rfl⟩
    exact ⟨by decide, (isPeak_spike p p 100 (by decide) (by decide)).mpr ⟨rfl, rfl⟩⟩

theorem landmark_spike (o : Overflow) (a : Nat) (ha : a + 46 < 2 ^ 32 ∨ o = .wraps) :
    ∃ peak, landmark o (UInt32.ofNat (a + 46)) (spike a a) 100 = some peak ∧
      InBand ._520_1450 (frequencyOf peak) := by
  have hsides : value (spike a a) 99 = 1 / 10 ^ 10 ∧ value (spike a a) 101 = 1 / 10 ^ 10 := by
    simp [value_spike]
  have htop : value (spike a a) 100 = 2 := by simp [value_spike]
  obtain ⟨magnitude, corrected, ⟨hlo, hhi⟩, heq⟩ := Interpolation.landmark_eq o
    (UInt32.ofNat (a + 46)) (spike a a) 100 (by decide) (by decide)
    (by rw [hsides.1]; norm_num) (by rw [hsides.2]; norm_num)
    (by rw [hsides.1, htop]; norm_num) (by rw [hsides.2, htop]; norm_num)
  have hsub : ∃ fftPassNumber, subU32 o (UInt32.ofNat (a + 46)) 46 = some fftPassNumber := by
    refine ⟨_, if_pos (ha.imp_left fun h => ?_)⟩
    exact le_toNat_passes h
  obtain ⟨fftPassNumber, hsub⟩ := hsub
  refine ⟨_, by rw [heq, hsub, Option.map_some], ?_⟩
  simp only [InBand, bandRange, frequencyOf]
  omega

theorem landmarksIn_spike (o : Overflow) (a : Nat) (ha : a + 46 < 2 ^ 32 ∨ o = .wraps) :
    landmarksIn o (spike a) ._520_1450 a ≠ [] := by
  obtain ⟨peak, hpeak, hin⟩ := landmark_spike o a ha
  apply List.ne_nil_of_mem (a := peak)
  rw [landmarksIn, List.mem_filterMap]
  refine ⟨100, (mem_peakBins_spike a a 100).mpr ⟨rfl, rfl⟩, ?_⟩
  rw [landmarkIn, hpeak, Option.filter_some_pos (by simpa using hin)]

theorem landmarksIn_spike_of_ne (o : Overflow) (a p : Nat) (hp : p ≠ a) (band : FrequencyBand) :
    landmarksIn o (spike a) band p = [] := by
  have hnil : peakBins (spike a) p = [] :=
    List.eq_nil_iff_forall_not_mem.mpr fun b hb => hp ((mem_peakBins_spike a p b).mp hb).1
  rw [landmarksIn, hnil, List.filterMap_nil]

theorem record_spike (o : Overflow) (a n : Nat) (ha : a + 46 < 2 ^ 32 ∨ o = .wraps) :
    ∃ bands, record o (spike a) n = some bands := by
  rw [← Option.ne_none_iff_exists', Ne, record_eq_none_iff]
  rintro ⟨p, -, b, hb, hnone⟩
  obtain ⟨rfl, rfl⟩ := (mem_peakBins_spike a p b).mp hb
  obtain ⟨peak, hpeak, -⟩ := landmark_spike o p ha
  rw [hpeak] at hnone
  cases hnone

/-- Until a spike is searched, a run of spikes records nothing. -/
theorem bandPeaks_spike_before (o : Overflow) (a n : Nat) (hn : n < a + 46)
    (band : FrequencyBand) : bandPeaks o (spike a) n band = [] := by
  rw [bandPeaks, List.flatMap_eq_nil_iff]
  intro p hp
  rw [mem_examined] at hp
  exact landmarksIn_spike_of_ne o a p (by omega) band

theorem bandPeaks_spike (o : Overflow) (a n : Nat) (ha : a + 46 < 2 ^ 32 ∨ o = .wraps)
    (hn : a + 46 ≤ n) : bandPeaks o (spike a) n ._520_1450 ≠ [] := by
  rw [bandPeaks, Ne, List.flatMap_eq_nil_iff]
  intro hnil
  exact landmarksIn_spike o a ha (hnil a ((mem_examined n a).mpr hn))

end Spike

theorem spike_not_refines (a n : Nat) (ha : a + 46 = n) (hn : n = 2 ^ 32) :
    ¬Refines .wraps (spike a) [] n := by
  intro h
  subst ha
  obtain ⟨hinv, hsignature⟩ := run_spec .wraps (spike a) [] (a + 45) (by omega)
  obtain ⟨bands, hbands⟩ := record_spike .wraps a (a + 45) (Or.inr rfl)
  rw [hbands, Option.map_some, Option.map_eq_some_iff] at hsignature
  obtain ⟨this, hrun, hthis⟩ := hsignature
  obtain ⟨this', hpass, hthis'⟩ := pass_wrapped (hinv this hrun) hn
  have hend : run .wraps (spike a) [] (a + 46) = some this' := by
    rw [run_succ, hrun, Option.bind_some, hpass]
  have hlookup := h.records _ hend ._520_1450
  have hbefore := lookup_record hbands ._520_1450
  rw [if_neg (bandPeaks_spike .wraps a _ (Or.inr rfl) le_rfl)] at hlookup
  rw [if_pos (bandPeaks_spike_before .wraps a _ (by omega) _)] at hbefore
  rw [hthis', hthis, setBands_bands, hbefore] at hlookup
  cases hlookup

/-- Once the counter wraps around, the pass 46 back is not searched. -/
theorem run_wraps_not_refines : ¬Refines .wraps (spike (2 ^ 32 - 46)) [] (2 ^ 32) :=
  spike_not_refines _ _ (by norm_num) rfl

/-- The shortest run with a search, which finds the spike. -/
theorem run_refines_spike : 46 < 2 ^ 32 ∧ Refines .panics (spike 0) [] 46 :=
  ⟨by norm_num, run_refines .panics (spike 0) [] 46 (by norm_num)⟩

end StreamingPeaks
