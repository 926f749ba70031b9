import Mathlib
import ShazamioCore.SampleRing

/-!
# A peak knows only the audio around it

Whether a bin is a peak depends on the 45 passes on either side of its own, and those that
would lie before the buffer are as silent as a run of zeros. So equal audio around two
passes yields equal landmarks, wherever in their buffers the passes stand.
-/
namespace Locality

open MachineInt SignatureFormat Algorithm PeakDetection GeneratorRun StreamingPeaks SampleRing

variable {α : Type} [LinearOrder α] [F32 α]

/-- What makes a bin a peak among the spectra around it, its own at zero. -/
def IsPeakAround (w : Int → Spectrum α) (b : Nat) : Prop :=
  F32.lit (1 / 64) ≤ value (w 0) b ∧
    (∀ d ∈ keptOffsets, spreadValue (w (-3 + d)) (b - 1) ≤ value (w 0) b) ∧
    (∀ o ∈ neighborOffsets, ∀ d ∈ keptOffsets,
      spreadValue (w (-3 + d)) (b + o).toNat < value (w 0) b) ∧
    ∀ e ∈ adjacentPasses, ∀ d ∈ keptOffsets, spreadValue (w (e + d)) (b - 1) < value (w 0) b

theorem isPeakAround_congr (w w' : Int → Spectrum α) (b : Nat)
    (h : ∀ j, -45 ≤ j → j ≤ 45 → w j = w' j) : IsPeakAround w b ↔ IsPeakAround w' b := by
  have hkept : ∀ d ∈ keptOffsets, 0 ≤ d ∧ d ≤ 6 := by decide
  have hadjacent : ∀ e ∈ adjacentPasses, -45 ≤ e ∧ e ≤ 39 := by decide
  have hnear : ∀ d ∈ keptOffsets, w (-3 + d) = w' (-3 + d) := by
    intro d hd
    have := hkept d hd
    exact h _ (by omega) (by omega)
  have hfar : ∀ e ∈ adjacentPasses, ∀ d ∈ keptOffsets, w (e + d) = w' (e + d) := by
    intro e he d hd
    have := hkept d hd
    have := hadjacent e he
    exact h _ (by omega) (by omega)
  rw [IsPeakAround]
  rw [h 0 (by decide) (by decide)]
  refine and_congr_right fun _ => and_congr ?_ (and_congr ?_ ?_)
  · exact forall₂_congr fun d hd => by rw [hnear d hd]
  · exact forall₂_congr fun o _ => forall₂_congr fun d hd => by rw [hnear d hd]
  · exact forall₂_congr fun e he => forall₂_congr fun d hd => by rw [hfar e he d hd]

section Silence

def Quiet (spectrum : Spectrum α) : Prop := ∀ c, value spectrum c ≤ F32.lit (1 / 10 ^ 10)

theorem Quiet.spreadValue_lt {spectrum : Spectrum α} (h : Quiet spectrum) (c : Nat) (x : α)
    (hx : F32.lit (1 / 64) ≤ x) : spreadValue spectrum c < x := by
  have hfloor : F32.lit (1 / 10 ^ 10) < x := F32.floor_lt_peak.trans_le hx
  rw [spreadValue_lt_iff]
  exact ⟨(h _).trans_lt hfloor, (h _).trans_lt hfloor, (h _).trans_lt hfloor⟩

variable {r : Int → Spectrum α} (hquiet : ∀ j < 0, Quiet (r j))

include hquiet

/-- A property of the passes kept is one of all four offsets, where silence has it. -/
theorem forall_keptPasses_iff (q : Int) (P : Spectrum α → Prop) (hP : ∀ s, Quiet s → P s) :
    (∀ j ∈ keptPasses q, P (r j.toNat)) ↔ ∀ d ∈ keptOffsets, P (r (q + d)) := by
  constructor
  · intro h d hd
    by_cases hj : 0 ≤ q + d
    · have hP' := h (q + d) (List.mem_filter.mpr ⟨List.mem_map_of_mem hd, by simpa using hj⟩)
      rwa [Int.toNat_of_nonneg hj] at hP'
    · exact hP _ (hquiet _ (by omega))
  · intro h j hj
    obtain ⟨hmem, hnn⟩ := List.mem_filter.mp hj
    obtain ⟨d, hd, rfl⟩ := List.mem_map.mp hmem
    rw [Int.toNat_of_nonneg (by simpa using hnn)]
    exact h d hd

theorem retained_lt_iff_around (q : Int) (c : Nat) (x : α) (hx : F32.lit (1 / 64) ≤ x) :
    retained (fun k => r k) q c < x ↔ ∀ d ∈ keptOffsets, spreadValue (r (q + d)) c < x := by
  have hpos : F32.lit 0 < x := F32.zero_lt_floor.trans (F32.floor_lt_peak.trans_le hx)
  rw [retained_lt_iff, and_iff_right hpos]
  exact forall_keptPasses_iff hquiet q _ fun s hs => hs.spreadValue_lt c x hx

theorem retained_le_iff_around (q : Int) (c : Nat) (x : α) (hx : F32.lit (1 / 64) ≤ x) :
    retained (fun k => r k) q c ≤ x ↔ ∀ d ∈ keptOffsets, spreadValue (r (q + d)) c ≤ x := by
  have hpos : F32.lit 0 < x := F32.zero_lt_floor.trans (F32.floor_lt_peak.trans_le hx)
  rw [retained_le_iff, and_iff_right hpos.le]
  exact forall_keptPasses_iff hquiet q _ fun s hs => (hs.spreadValue_lt c x hx).le

/-- With silence before the run, a peak of a pass is one among the spectra around it. -/
theorem isPeak_iff_around (p b : Nat) :
    IsPeak (fun k => r k) p b ↔ IsPeakAround (fun j => r (p + j)) b := by
  rw [IsPeak, IsPeakAround]
  simp only [add_zero]
  refine and_congr_right fun hx => and_congr ?_ (and_congr ?_ ?_)
  · rw [retained_le_iff_around hquiet _ _ _ hx]
    simp only [sub_eq_add_neg, add_assoc]
  · refine forall₂_congr fun o _ => ?_
    rw [retained_lt_iff_around hquiet _ _ _ hx]
    simp only [sub_eq_add_neg, add_assoc]
  · refine forall₂_congr fun e _ => ?_
    rw [retained_lt_iff_around hquiet _ _ _ hx]
    simp only [add_assoc]

end Silence

section Samples

def SilenceToZero (fft : Vector α 2048 → Vector (α × α) 1025) : Prop :=
  ∀ c : Fin 1025, power (fft (windowed fun _ => 0))[c] = F32.lit 0

theorem spectrumAt_quiet {fft : Vector α 2048 → Vector (α × α) 1025} (h : SilenceToZero fft)
    (s : List Int16) (k : Int) (hk : k < 0) : Quiet (spectrumAt fft s k) := by
  have hsilent : samplesOf s k = fun _ => 0 := by
    funext i
    rw [samplesOf, sampleAt, if_neg (by omega)]
  intro c
  rw [spectrumAt, hsilent]
  by_cases hc : c < 1025
  · rw [value_eq _ c hc, realFftResults, Vector.getElem_map]
    have hpower := h ⟨c, hc⟩
    simp only [Fin.getElem_fin] at hpower
    rw [hpower, max_eq_right F32.zero_lt_floor.le]
  · rw [value, Vector.getElem?_eq_none (by omega)]
    exact F32.zero_lt_floor.le

/-- Equal audio around two passes: equal spectra 45 passes to either side. -/
theorem spectrumAt_eq (fft : Vector α 2048 → Vector (α × α) 1025) (A B : List Int16) (p p' : Nat)
    (h : ∀ i : Nat, i < 128 * 90 + 2048 →
      sampleAt A (128 * (p - 44) - 2048 + i) = sampleAt B (128 * (p' - 44) - 2048 + i))
    (j : Int) (hlo : -45 ≤ j) (hhi : j ≤ 45) :
    spectrumAt fft A (p + j) = spectrumAt fft B (p' + j) := by
  have hsamples : samplesOf A (p + j) = samplesOf B (p' + j) := by
    funext i
    have hi := h (128 * (j + 45) + i).toNat (by omega)
    have hcast : ((128 * (j + 45) + i).toNat : Int) = 128 * (j + 45) + i :=
      Int.toNat_of_nonneg (by omega)
    rw [hcast] at hi
    unfold samplesOf
    convert hi using 2
    · ring
    · ring
  rw [spectrumAt, spectrumAt, hsamples]

end Samples

section Recorded

/-- What a landmark says besides its pass number. -/
def content (peak : FrequencyPeak) : UInt16 × UInt16 :=
  (peak.peakMagnitude, peak.correctedPeakFrequencyBin)

def allBands : List FrequencyBand := [._250_520, ._520_1450, ._1450_3500, ._3500_5500]

/-- The landmarks of a signature under a pass number, each with its band. -/
def recordedAs (signature : DecodedSignature) (p : Nat) :
    List (FrequencyBand × UInt16 × UInt16) :=
  allBands.flatMap fun band =>
    (((signature.frequencyBandToSoundPeaks.lookup band).getD []).filter
      (·.fftPassNumber.toNat = p)).map fun peak => (band, content peak)

/-- The number of passes done has no say in a landmark but for its own number. -/
theorem landmark_content (o : Overflow) (num num' : UInt32) (spectrum : Spectrum α) (b : Nat)
    (h : (46 : UInt32).toNat ≤ num.toNat) (h' : (46 : UInt32).toNat ≤ num'.toNat) :
    (landmark o num spectrum b).map content = (landmark o num' spectrum b).map content := by
  simp only [landmark, subU32_fits o _ _ h, subU32_fits o _ _ h', Option.bind_eq_bind,
    Option.bind_some, Option.map_bind, Option.pure_def, Option.map_some, Function.comp_def,
    content]

theorem landmarkIn_content (o : Overflow) (num num' : UInt32) (spectrum : Spectrum α)
    (band : FrequencyBand) (b : Nat) (h : (46 : UInt32).toNat ≤ num.toNat)
    (h' : (46 : UInt32).toNat ≤ num'.toNat) :
    (landmarkIn o num spectrum band b).map content =
      (landmarkIn o num' spectrum band b).map content := by
  have hcontent := landmark_content o num num' spectrum b h h'
  unfold landmarkIn
  cases hl : landmark o num spectrum b with
  | none =>
    rw [hl, Option.map_none, eq_comm, Option.map_eq_none_iff] at hcontent
    rw [hcontent]
  | some peak =>
    rw [hl, Option.map_some, eq_comm, Option.map_eq_some_iff] at hcontent
    obtain ⟨peak', hl', heq⟩ := hcontent
    have hbin : peak'.correctedPeakFrequencyBin = peak.correctedPeakFrequencyBin :=
      congrArg Prod.snd heq
    rw [hl', Option.filter_some, Option.filter_some, frequencyOf, frequencyOf, hbin]
    split
    · rw [Option.map_some, Option.map_some, heq]
    · rfl

theorem flatMap_eq_single {β γ : Type} (l : List β) (hl : l.Nodup) (x : β) (hx : x ∈ l)
    (f : β → List γ) (h : ∀ y ∈ l, y ≠ x → f y = []) : l.flatMap f = f x := by
  induction l with
  | nil => cases hx
  | cons y l ih =>
    rw [List.nodup_cons] at hl
    rw [List.flatMap_cons]
    rcases List.mem_cons.mp hx with rfl | hmem
    · have hnil : l.flatMap f = [] := by
        rw [List.flatMap_eq_nil_iff]
        intro z hz
        exact h z (List.mem_cons_of_mem _ hz) fun he => hl.1 (he ▸ hz)
      rw [hnil, List.append_nil]
    · have hy : f y = [] := h y List.mem_cons_self fun he => hl.1 (he ▸ hmem)
      rw [hy, List.nil_append]
      exact ih hl.2 hmem fun z hz => h z (List.mem_cons_of_mem _ hz)

theorem landmarksIn_fftPassNumber {o : Overflow} {r : Nat → Spectrum α} {band : FrequencyBand}
    {p : Nat} (hp : p + 46 < 2 ^ 32) {peak : FrequencyPeak} (h : peak ∈ landmarksIn o r band p) :
    peak.fftPassNumber.toNat = p := by
  rw [landmarksIn, List.mem_filterMap] at h
  obtain ⟨b, -, hb⟩ := h
  exact landmark_fftPassNumber hp (Option.eq_some_of_filter_eq_some hb)

/-- The landmarks of a band under a pass number are those of that pass. -/
theorem bandPeaks_filter (o : Overflow) (r : Nat → Spectrum α) (n : Nat) (hn : n < 2 ^ 32)
    (band : FrequencyBand) (p : Nat) (hp : p + 46 ≤ n) :
    (bandPeaks o r n band).filter (·.fftPassNumber.toNat = p) = landmarksIn o r band p := by
  rw [bandPeaks, List.filter_flatMap,
    flatMap_eq_single (examined n) List.nodup_range p ((mem_examined n p).mpr hp)]
  · rw [List.filter_eq_self]
    intro peak hpeak
    simpa using landmarksIn_fftPassNumber (by omega) hpeak
  · intro q hq hne
    rw [mem_examined] at hq
    rw [List.filter_eq_nil_iff]
    intro peak hpeak
    rw [landmarksIn_fftPassNumber (by omega) hpeak]
    simpa using hne

/-- What a signature holds under a pass number is what the search of that pass finds. -/
theorem recordedAs_eq {o : Overflow} {fft : Vector α 2048 → Vector (α × α) 1025}
    {s : List Int16} {signature : DecodedSignature} (hs : s.length / 128 < 2 ^ 32)
    (h : makeSignatureFromBuffer o fft s = some signature) (p : Nat)
    (hp : p + 46 ≤ s.length / 128) :
    recordedAs signature p = allBands.flatMap fun band =>
      (landmarksIn o (fun k => spectrumAt fft s k) band p).map
        fun peak => (band, content peak) := by
  rw [makeSignatureFromBuffer_eq o fft s hs, Option.map_eq_some_iff] at h
  obtain ⟨bands, hrecord, rfl⟩ := h
  rw [recordedAs]
  congr 1
  funext band
  rw [setBands_bands, lookup_record hrecord band, ← bandPeaks_filter o _ _ hs band p hp]
  split
  · rename_i hnil
    rw [hnil]
    rfl
  · rfl

end Recorded

/-- Equal audio around two passes of two buffers: the same landmarks of the two. -/
theorem landmarksIn_local (o : Overflow) (fft : Vector α 2048 → Vector (α × α) 1025)
    (hfft : SilenceToZero fft) (A B : List Int16) (p p' : Nat)
    (hp : p + 46 < 2 ^ 32) (hp' : p' + 46 < 2 ^ 32)
    (haudio : ∀ i : Nat, i < 128 * 90 + 2048 →
      sampleAt A (128 * (p - 44) - 2048 + i) = sampleAt B (128 * (p' - 44) - 2048 + i))
    (band : FrequencyBand) :
    (landmarksIn o (fun k => spectrumAt fft A k) band p).map (fun peak => (band, content peak)) =
      (landmarksIn o (fun k => spectrumAt fft B k) band p').map
        fun peak => (band, content peak) := by
  have haround := spectrumAt_eq fft A B p p' haudio
  have hown : spectrumAt fft A p = spectrumAt fft B p' := by
    simpa using haround 0 (by decide) (by decide)
  have hpeaks : peakBins (fun k => spectrumAt fft A k) p =
      peakBins (fun k => spectrumAt fft B k) p' := by
    refine List.filter_congr fun b _ => decide_eq_decide.mpr ?_
    rw [isPeak_iff_around (spectrumAt_quiet hfft A), isPeak_iff_around (spectrumAt_quiet hfft B)]
    exact isPeakAround_congr _ _ b haround
  have hcontent : ∀ b, (landmarkIn o (UInt32.ofNat (p + 46)) (spectrumAt fft B p') band b).map
      content = (landmarkIn o (UInt32.ofNat (p' + 46)) (spectrumAt fft B p') band b).map content :=
    fun b => landmarkIn_content o _ _ _ band b (le_toNat_passes hp) (le_toNat_passes hp')
  have hlist : (landmarksIn o (fun k => spectrumAt fft A k) band p).map content =
      (landmarksIn o (fun k => spectrumAt fft B k) band p').map content := by
    rw [landmarksIn, landmarksIn, List.map_filterMap, List.map_filterMap, hpeaks, hown]
    simp only [hcontent]
  have hbanded := congrArg (List.map (Prod.mk band)) hlist
  rw [List.map_map, List.map_map] at hbanded
  exact hbanded

/-- Equal audio around two passes of two buffers: the same landmarks under their numbers. -/
theorem landmarks_local (o : Overflow) (fft : Vector α 2048 → Vector (α × α) 1025)
    (hfft : SilenceToZero fft) (A B : List Int16) (p p' : Nat)
    (hA : A.length / 128 < 2 ^ 32) (hB : B.length / 128 < 2 ^ 32)
    (hp : p + 46 ≤ A.length / 128) (hp' : p' + 46 ≤ B.length / 128)
    (haudio : ∀ i : Nat, i < 128 * 90 + 2048 →
      sampleAt A (128 * (p - 44) - 2048 + i) = sampleAt B (128 * (p' - 44) - 2048 + i))
    (signatureA signatureB : DecodedSignature)
    (hsignatureA : makeSignatureFromBuffer o fft A = some signatureA)
    (hsignatureB : makeSignatureFromBuffer o fft B = some signatureB) :
    recordedAs signatureA p = recordedAs signatureB p' := by
  rw [recordedAs_eq hA hsignatureA p hp, recordedAs_eq hB hsignatureB p' hp']
  exact congrArg (allBands.flatMap ·) (funext fun band =>
    landmarksIn_local o fft hfft A B p p' (by omega) (by omega) haudio band)

section Click

/-- A transform that hears only the newest sample, and puts it into one bin. -/
noncomputable def detector (window : Vector ℝ 2048) : Vector (ℝ × ℝ) 1025 :=
  Vector.ofFn fun c =>
    if c.val = 100 ∧ window.get (Fin.last 2047) ≠ 0 then (((2 ^ 9 : Nat) : ℝ), 0) else (0, 0)

/-- Silence but for the last sample of chunk `a`, with 45 chunks after it. -/
def click (a : Nat) : List Int16 :=
  List.replicate (128 * a + 127) 0 ++ 1 :: List.replicate (128 * 45) 0

theorem length_click (a : Nat) : (click a).length = 128 * (a + 46) := by
  simp only [click, List.length_append, List.length_replicate, List.length_cons]
  omega

theorem chunks_click (a : Nat) : (click a).length / 128 = a + 46 := by
  rw [length_click]
  omega

theorem sampleAt_click (a : Nat) (q : Int) :
    sampleAt (click a) q = if q = 128 * a + 127 then 1 else 0 := by
  by_cases hq : 0 ≤ q
  · obtain ⟨n, rfl⟩ := Int.eq_ofNat_of_zero_le hq
    rw [sampleAt, if_pos hq, Int.toNat_natCast, click, List.getD_eq_getElem?_getD]
    rcases Nat.lt_trichotomy n (128 * a + 127) with hlt | rfl | hgt
    · rw [List.getElem?_append_left (by simpa using hlt), List.getElem?_replicate_of_lt hlt,
        if_neg (by omega)]
      rfl
    · rw [List.getElem?_append_right (by simp), List.length_replicate, Nat.sub_self,
        if_pos (by omega)]
      rfl
    · obtain ⟨m, rfl⟩ : ∃ m, n = 128 * a + 127 + (m + 1) := ⟨n - (128 * a + 128), by omega⟩
      have hne : ((128 * a + 127 + (m + 1) : Nat) : Int) ≠ 128 * a + 127 := by omega
      rw [List.getElem?_append_right (by simp), List.length_replicate, Nat.add_sub_cancel_left,
        List.getElem?_cons_succ, List.getElem?_replicate, if_neg hne]
      split <;> rfl
  · rw [sampleAt, if_neg hq, if_neg (by omega)]

theorem hanning_last_ne_zero : Hanning.hanningWindow2048Multipliers 2047 ≠ 0 := by
  decide +kernel

theorem detector_windowed (window : Fin 2048 → Int16) (c : Nat) (hc : c < 1025) :
    power (detector (windowed window))[c] = if c = 100 ∧ window 2047 ≠ 0 then 2 else 0 := by
  have hheard : (windowed window : Vector ℝ 2048).get (Fin.last 2047) ≠ 0 ↔ window 2047 ≠ 0 := by
    have hlast : ((Hanning.hanningWindow2048Multipliers 2047 : Rat) : ℝ) ≠ 0 :=
      Rat.cast_ne_zero.mpr hanning_last_ne_zero
    have hint : (window 2047).toInt = 0 ↔ window 2047 = 0 := by
      rw [← Int16.toInt_zero, Int16.toInt_inj]
    have hread : (windowed window : Vector ℝ 2048).get (Fin.last 2047) =
        ((window 2047).toInt : ℝ) * (Hanning.hanningWindow2048Multipliers 2047 : Rat) := by
      change (windowed window : Vector ℝ 2048)[2047] = _
      rw [windowed, Vector.getElem_ofFn]
      rfl
    rw [hread, mul_ne_zero_iff, Int.cast_ne_zero, Ne, hint]
    exact and_iff_left hlast
  rw [detector, Vector.getElem_ofFn]
  simp only [hheard]
  split
  · norm_num [power, F32.div, F32.add, F32.mul, F32.ofInt]
  · norm_num [power, F32.div, F32.add, F32.mul, F32.ofInt]

theorem detector_silenceToZero : SilenceToZero detector := by
  intro c
  rw [Fin.getElem_fin, detector_windowed, if_neg (by simp)]
  simp [F32.lit]

theorem spectrumAt_click (a : Nat) :
    (fun k : Nat => spectrumAt detector (click a) k) = spike a := by
  funext k
  apply Vector.ext
  intro c hc
  have hnewest : samplesOf (click a) k 2047 ≠ 0 ↔ k = a := by
    have hposition : (128 * (k + 1) - 2048 + ((2047 : Fin 2048).val : Int) = 128 * a + 127) ↔
        k = a := by
      rw [show ((2047 : Fin 2048).val : Int) = 2047 from rfl]
      omega
    rw [samplesOf, sampleAt_click]
    simp only [hposition]
    split
    · simpa using ‹k = a›
    · simpa using ‹¬k = a›
  rw [spectrumAt, realFftResults, Vector.getElem_map, detector_windowed, spike,
    Vector.getElem_ofFn]
  simp only [hnewest, and_comm]
  split
  · norm_num [F32.lit]
  · norm_num [F32.lit]

theorem click_audio (a b i : Nat) :
    sampleAt (click a) (128 * (a - 44) - 2048 + i) =
      sampleAt (click b) (128 * (b - 44) - 2048 + i) := by
  rw [sampleAt_click, sampleAt_click]
  congr 1
  apply propext
  omega

theorem makeSignatureFromBuffer_click (o : Overflow) (a : Nat) (ha : a + 46 < 2 ^ 32) :
    ∃ signature, makeSignatureFromBuffer o detector (click a) = some signature ∧
      recordedAs signature a ≠ [] := by
  have hlength := chunks_click a
  obtain ⟨bands, hbands⟩ := record_spike o a (a + 46) (Or.inl ha)
  have hmake := makeSignatureFromBuffer_eq o detector (click a) (by omega)
  rw [spectrumAt_click, hlength, hbands, Option.map_some] at hmake
  refine ⟨_, hmake, ?_⟩
  rw [recordedAs_eq (by omega) hmake a hlength.ge, spectrumAt_click, Ne, List.flatMap_eq_nil_iff]
  intro hnil
  have hband := hnil ._520_1450 (by decide)
  rw [List.map_eq_nil_iff] at hband
  exact landmarksIn_spike o a (Or.inl ha) hband

theorem makeSignatureFromBuffer_click_wraps (a : Nat) (ha : a + 46 = 2 ^ 32) :
    ∃ signature, makeSignatureFromBuffer .wraps detector (click a) = some signature ∧
      recordedAs signature a = [] := by
  have hlength := chunks_click a
  obtain ⟨hinv, hsignature⟩ := turns_spec .wraps detector (click a) (a + 45) (by omega) (by omega)
  obtain ⟨bands, hbands⟩ := record_spike .wraps a (a + 45) (Or.inr rfl)
  rw [spectrumAt_click, hbands, Option.map_some, Option.map_eq_some_iff] at hsignature
  obtain ⟨this, hturns, hthis⟩ := hsignature
  obtain ⟨fed, -, hspectra, hfed, heq⟩ := turn_eq_pass (o := .wraps) (by omega) (hinv this hturns)
  obtain ⟨this', hpass, hthis'⟩ := pass_wrapped hspectra ha
  refine ⟨this'.signature, ?_, ?_⟩
  · rw [makeSignatureFromBuffer_eq_turns, hlength, turns_succ, hturns, Option.bind_some, heq,
      hpass, Option.map_some]
  · rw [recordedAs, List.flatMap_eq_nil_iff]
    intro band _
    rw [hthis', hfed, hthis, setBands_bands, lookup_record hbands band,
      if_pos (bandPeaks_spike_before .wraps a _ (by omega) band)]
    rfl

theorem clicks_not_local (a : Nat) (ha : a + 46 = 2 ^ 32) :
    a + 46 ≤ (click a).length / 128 ∧ 0 + 46 ≤ (click 0).length / 128 ∧
      (∀ i : Nat, i < 128 * 90 + 2048 →
        sampleAt (click a) (128 * (a - 44) - 2048 + i) =
          sampleAt (click 0) (128 * ((0 : Nat) - 44) - 2048 + i)) ∧
      ∃ signatureA signatureB,
        makeSignatureFromBuffer .wraps detector (click a) = some signatureA ∧
          makeSignatureFromBuffer .wraps detector (click 0) = some signatureB ∧
          recordedAs signatureA a ≠ recordedAs signatureB 0 := by
  obtain ⟨signatureA, hA, hnil⟩ := makeSignatureFromBuffer_click_wraps a ha
  obtain ⟨signatureB, hB, hne⟩ := makeSignatureFromBuffer_click .wraps 0 (by norm_num)
  refine ⟨(chunks_click a).ge, (chunks_click 0).ge, fun i _ => click_audio a 0 i, signatureA,
    signatureB, hA, hB, ?_⟩
  rw [hnil]
  exact hne.symm

end Click

/-- Two clicks with the same audio around them: the one that ends a buffer of 2^32 chunks
leaves nothing, since the counter has wrapped around when it would be found. -/
theorem landmarks_not_local_wraps :
    SilenceToZero detector ∧
      2 ^ 32 - 46 + 46 ≤ (click (2 ^ 32 - 46)).length / 128 ∧ 0 + 46 ≤ (click 0).length / 128 ∧
      (∀ i : Nat, i < 128 * 90 + 2048 →
        sampleAt (click (2 ^ 32 - 46)) (128 * (((2 ^ 32 - 46 : Nat) : Int) - 44) - 2048 + i) =
          sampleAt (click 0) (128 * ((0 : Nat) - 44) - 2048 + i)) ∧
      ∃ signatureA signatureB,
        makeSignatureFromBuffer .wraps detector (click (2 ^ 32 - 46)) = some signatureA ∧
          makeSignatureFromBuffer .wraps detector (click 0) = some signatureB ∧
          recordedAs signatureA (2 ^ 32 - 46) ≠ recordedAs signatureB 0 :=
  ⟨detector_silenceToZero, clicks_not_local (2 ^ 32 - 46) (by norm_num)⟩

/-- The same click one chunk later in its buffer. -/
theorem clicks_local :
    ∃ signatureA signatureB,
      makeSignatureFromBuffer .panics detector (click 0) = some signatureA ∧
        makeSignatureFromBuffer .panics detector (click 1) = some signatureB ∧
        recordedAs signatureA 0 ≠ [] ∧ recordedAs signatureA 0 = recordedAs signatureB 1 := by
  obtain ⟨signatureA, hA, hne⟩ := makeSignatureFromBuffer_click .panics 0 (by norm_num)
  obtain ⟨signatureB, hB, -⟩ := makeSignatureFromBuffer_click .panics 1 (by norm_num)
  refine ⟨signatureA, signatureB, hA, hB, hne, ?_⟩
  exact landmarks_local .panics detector detector_silenceToZero (click 0) (click 1) 0 1
    (by rw [chunks_click]; norm_num) (by rw [chunks_click]; norm_num) (chunks_click 0).ge
    (chunks_click 1).ge (fun i _ => click_audio 0 1 i) signatureA signatureB hA hB

end Locality
