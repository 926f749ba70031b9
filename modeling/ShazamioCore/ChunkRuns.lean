import Mathlib
import ShazamioCore.SampleRing

/-!
# What each transform sees

Before every chunk the three ring indices stand where the number of chunks says, the
transform is handed the last 2048 samples under the window, and the samples that fill no
chunk go into the signature as a count alone.
-/
namespace ChunkRuns

open MachineInt SignatureFormat Algorithm SpreadRings LoopRules GeneratorRun SampleRing

variable {α : Type} [LinearOrder α] [F32 α]

section Relabel

def relabel (rate numberSamples : UInt32) (signature : DecodedSignature) : DecodedSignature :=
  { signature with sampleRateHz := rate, numberSamples := numberSamples }

def relabelState (rate numberSamples : UInt32) (this : SignatureGenerator α) :
    SignatureGenerator α :=
  { this with signature := relabel rate numberSamples this.signature }

variable (rate numberSamples : UInt32) (this : SignatureGenerator α)

omit [LinearOrder α] [F32 α] in
theorem storeSpectrum_relabel (spectrum : Spectrum α) :
    storeSpectrum (relabelState rate numberSamples this) spectrum =
      (storeSpectrum this spectrum).map (relabelState rate numberSamples) := by
  by_cases h : this.fftOutputsIndex < 256
  · have hstored : storeSpectrum this spectrum = some _ := dif_pos h
    rw [hstored]
    exact dif_pos h
  · have hstopped : storeSpectrum this spectrum = none := dif_neg h
    rw [hstopped]
    exact dif_neg h

theorem doFft_relabel (fft : Vector α 2048 → Vector (α × α) 1025) (chunk : List Int16) :
    doFft fft (relabelState rate numberSamples this) chunk =
      (doFft fft this chunk).map (relabelState rate numberSamples) := by
  simp only [doFft, relabelState]
  cases copyFromSlice this.ringBufferOfSamples this.ringBufferOfSamplesIndex chunk with
  | none => rfl
  | some ring =>
    let index := (this.ringBufferOfSamplesIndex + 128) &&& 2047
    exact storeSpectrum_relabel rate numberSamples
      { this with
        ringBufferOfSamples := ring
        ringBufferOfSamplesIndex := index
        reorderedRingBufferOfSamples := reorder ring index }
      (realFftResults (fft (reorder ring index)))

omit [F32 α] in
theorem doPeakSpreading_relabel :
    doPeakSpreading (relabelState rate numberSamples this) =
      (doPeakSpreading this).map (relabelState rate numberSamples) := by
  by_cases h : this.spreadFftOutputsIndex < 256
  · have hspread : doPeakSpreading this = some _ := dif_pos h
    rw [hspread]
    exact dif_pos h
  · have hstopped : doPeakSpreading this = none := dif_neg h
    rw [hstopped]
    exact dif_neg h

theorem doPeakRecognition_relabel (o : Overflow) :
    doPeakRecognition o (relabelState rate numberSamples this) =
      (doPeakRecognition o this).map (relabelState rate numberSamples) := by
  simp only [doPeakRecognition, Option.bind_eq_bind, Option.pure_def, Option.map_eq_bind,
    Option.bind_assoc]
  rfl

/-- A turn of the loop goes by without a look at the labels. -/
theorem turn_relabel (o : Overflow) (fft : Vector α 2048 → Vector (α × α) 1025)
    (chunk : List Int16) :
    turn o fft (relabelState rate numberSamples this) chunk =
      (turn o fft this chunk).map (relabelState rate numberSamples) := by
  rw [turn, turn, doFft_relabel]
  cases doFft fft this chunk with
  | none => rfl
  | some fed =>
    simp only [Option.map_some, Option.bind_eq_bind, Option.bind_some, spreadAndRecognize,
      doPeakSpreading_relabel]
    cases doPeakSpreading fed with
    | none => rfl
    | some spread =>
      simp only [Option.map_some, Option.bind_some]
      have hcount : (relabelState rate numberSamples spread).numSpreadFftsDone =
        spread.numSpreadFftsDone := rfl
      rw [hcount]
      cases addU32 o spread.numSpreadFftsDone 1 with
      | none => rfl
      | some numSpreadFftsDone =>
        simp only [Option.bind_some]
        split
        · exact doPeakRecognition_relabel rate numberSamples
            { spread with numSpreadFftsDone := numSpreadFftsDone } o
        · rfl

end Relabel

def wholeChunks (s : List Int16) : List Int16 := s.take (128 * (s.length / 128))

theorem length_wholeChunks (s : List Int16) :
    (wholeChunks s).length = 128 * (s.length / 128) := by
  rw [wholeChunks, List.length_take]
  omega

theorem chunksExact_wholeChunks (s : List Int16) :
    chunksExact 128 (wholeChunks s) = chunksExact 128 s := by
  have hcount : (wholeChunks s).length / 128 = s.length / 128 := by
    rw [length_wholeChunks]
    omega
  rw [chunksExact, chunksExact, hcount]
  apply List.map_congr_left
  intro k hk
  rw [List.mem_range] at hk
  rw [wholeChunks, List.drop_take, List.take_take, Nat.min_eq_left (by omega)]

/-- The chunks make the bands; the labels are those of the buffer. -/
theorem makeSignatureFromBuffer_relabel (o : Overflow)
    (fft : Vector α 2048 → Vector (α × α) 1025) (s : List Int16) :
    makeSignatureFromBuffer o fft s =
      (makeSignatureFromBuffer o fft (wholeChunks s)).map
        (relabel sampleRateHz (UInt32.ofNat s.length)) := by
  have hstart : (start s : SignatureGenerator α) =
      relabelState sampleRateHz (UInt32.ofNat s.length) (start (wholeChunks s)) := rfl
  have hloop := foldlM_map_state (relabelState sampleRateHz (UInt32.ofNat s.length)) (turn o fft)
    (turn o fft) (fun this chunk => turn_relabel _ _ this o fft chunk) (chunksExact 128 s)
    (start (wholeChunks s))
  rw [makeSignatureFromBuffer, makeSignatureFromBuffer, chunksExact_wholeChunks]
  change ((chunksExact 128 s).foldlM (turn o fft) (start s)).bind _ = _
  rw [hstart, hloop]
  change _ = Option.map _ (((chunksExact 128 s).foldlM (turn o fft) (start (wholeChunks s))).bind _)
  cases (chunksExact 128 s).foldlM (turn o fft) (start (wholeChunks s)) with
  | none => rfl
  | some this => rfl

/-- The rate and the length a signature declares. -/
theorem makeSignatureFromBuffer_labels {o : Overflow}
    {fft : Vector α 2048 → Vector (α × α) 1025} {s : List Int16} {signature : DecodedSignature}
    (h : makeSignatureFromBuffer o fft s = some signature) :
    signature.sampleRateHz = sampleRateHz ∧
      signature.numberSamples = UInt32.ofNat s.length := by
  rw [makeSignatureFromBuffer_relabel, Option.map_eq_some_iff] at h
  obtain ⟨_, _, rfl⟩ := h
  exact ⟨rfl, rfl⟩

/-- The state before pass `k` and what the pass hands to the transform. -/
structure SeesWindow (fft : Vector α 2048 → Vector (α × α) 1025) (s : List Int16) (k : Nat)
    (this : SignatureGenerator α) : Prop where
  aligned : this.ringBufferOfSamplesIndex % 128 = 0
  below : this.ringBufferOfSamplesIndex < 2048
  fftOutputsIndex : this.fftOutputsIndex = k % 256
  spreadFftOutputsIndex : this.spreadFftOutputsIndex = k % 256
  /-- The copy and the store are in bounds, and the transform gets the window. -/
  handed : ∃ (ring : Vector Int16 2048) (reordered : Vector α 2048)
      (fftOutputs : Vector (Spectrum α) 256),
    copyFromSlice this.ringBufferOfSamples this.ringBufferOfSamplesIndex
        ((s.drop (128 * k)).take 128) = some ring ∧
      (∀ i : Fin 2048, reordered.get i =
        F32.mul (F32.ofInt (sampleAt s (128 * (k + 1) - 2048 + i.val)).toInt)
          (F32.lit (Hanning.hanningWindow2048Multipliers i.val))) ∧
      fftOutputs[k % 256]? = some (realFftResults (fft reordered)) ∧
      doFft fft this ((s.drop (128 * k)).take 128) =
        some { this with
          ringBufferOfSamples := ring
          ringBufferOfSamplesIndex := (this.ringBufferOfSamplesIndex + 128) &&& 2047
          reorderedRingBufferOfSamples := reordered
          fftOutputs := fftOutputs
          fftOutputsIndex := (k + 1) % 256 }

theorem windowed_get (window : Fin 2048 → Int16) (i : Fin 2048) :
    (windowed window : Vector α 2048).get i =
      F32.mul (F32.ofInt (window i).toInt)
        (F32.lit (Hanning.hanningWindow2048Multipliers i.val)) := by
  rw [windowed, Vector.get_ofFn]

/-- Rings in step with the buffer show the pass its window. -/
theorem inv_seesWindow {fft : Vector α 2048 → Vector (α × α) 1025} {s : List Int16} {k : Nat}
    (hk : k < s.length / 128) {this : SignatureGenerator α} (h : SampleRing.Inv fft s k this) :
    SeesWindow fft s k this := by
  obtain ⟨hsamples, hspectra⟩ := h
  have hindex := hsamples.index
  constructor
  case aligned => omega
  case below => omega
  case fftOutputsIndex => exact hspectra.fftIndex
  case spreadFftOutputsIndex => exact hspectra.spreadIndex
  case handed =>
    obtain ⟨ring, hring, hcopy⟩ := copyFromSlice_holds s k hk _ hsamples.samples
    have hadvanced : (128 * k % 2048 + 128) &&& 2047 = 128 * (k + 1) % 2048 := by
      rw [Nat.and_two_pow_sub_one_eq_mod _ 11]
      omega
    have hlt : k % 256 < 256 := Nat.mod_lt k (by decide)
    refine ⟨ring, windowed (samplesOf s k),
      this.fftOutputs.set (k % 256) (spectrumAt fft s k), ?_, ?_, ?_, ?_⟩
    · rw [hindex, hcopy]
    · intro i
      exact windowed_get _ i
    · rw [Vector.getElem?_eq_getElem hlt, Vector.getElem_set_self]
      rfl
    · rw [doFft, hindex, hcopy, Option.bind_eq_bind, Option.bind_some, hadvanced]
      simp only [reorder_eq s k ring hring, storeSpectrum, hspectra.fftIndex, and_255]
      rw [dif_pos hlt, Nat.mod_add_mod]
      rfl

/-- A signature is made in as many passes as there are whole chunks. In every pass that begins,
the transform is handed exactly the last 2048 samples in order; and the samples after the last
whole chunk change nothing but `numberSamples`. -/
theorem passes_see_windows (o : Overflow) (fft : Vector α 2048 → Vector (α × α) 1025)
    (s : List Int16) :
    makeSignatureFromBuffer o fft s =
        (turns o fft s (s.length / 128)).map SignatureGenerator.signature ∧
      (∀ k this, k < s.length / 128 → turns o fft s k = some this →
        SeesWindow fft s k this ∧
          turns o fft s (k + 1) =
            (doFft fft this ((s.drop (128 * k)).take 128)).bind (spreadAndRecognize o)) ∧
      makeSignatureFromBuffer o fft s =
        (makeSignatureFromBuffer o fft (wholeChunks s)).map fun signature =>
          { signature with numberSamples := UInt32.ofNat s.length } := by
  refine ⟨makeSignatureFromBuffer_eq_turns o fft s, ?_, ?_⟩
  · intro k this hk hturns
    refine ⟨inv_seesWindow hk (turns_inv (Nat.le_of_lt hk) hturns).1, ?_⟩
    rw [turns_succ, hturns, Option.bind_some]
    rfl
  · rw [makeSignatureFromBuffer_relabel]
    apply Option.map_congr
    intro signature hsignature
    have hrate := (makeSignatureFromBuffer_labels hsignature).1
    rw [relabel, ← hrate]

/-- Two chunks and a half: the second pass is reached, and sees both chunks behind silence. -/
theorem second_pass_sees_window : ∃ this : SignatureGenerator ℝ,
    turns .panics (fun _ => Vector.replicate 1025 (0, 0)) (List.replicate 320 7) 1 = some this ∧
      SeesWindow (fun _ => Vector.replicate 1025 (0, 0)) (List.replicate 320 7) 1 this := by
  obtain ⟨-, hsignature⟩ := turns_spec .panics
    (fun _ : Vector ℝ 2048 => Vector.replicate 1025 ((0 : ℝ), (0 : ℝ))) (List.replicate 320 7) 1
    (by rw [List.length_replicate]; omega) (by omega)
  obtain ⟨this, hturns, -⟩ := Option.map_eq_some_iff.mp hsignature
  obtain ⟨-, hpasses, -⟩ := passes_see_windows .panics
    (fun _ : Vector ℝ 2048 => Vector.replicate 1025 ((0 : ℝ), (0 : ℝ))) (List.replicate 320 7)
  obtain ⟨hsees, -⟩ := hpasses 1 this (by rw [List.length_replicate]; omega) hturns
  exact ⟨this, hturns, hsees⟩

end ChunkRuns
