import Mathlib
import ShazamioCore.StreamingPeaks

/-!
# From samples to spectra

The ring of samples holds the last 2048 of them, silence before the first, so the spectrum
of a pass is a function of the 2048 samples its chunk ends. With this the signature of a
buffer is what the ring-free search records over the spectra of its chunks.
-/
namespace SampleRing

open MachineInt SignatureFormat Algorithm RingBuffer SpreadRings LoopRules GeneratorRun

variable {α : Type} [LinearOrder α] [F32 α]

/-- A sample of a buffer; before and after it there is silence. -/
def sampleAt (s : List Int16) (q : Int) : Int16 := if 0 ≤ q then s.getD q.toNat 0 else 0

def windowed (window : Fin 2048 → Int16) : Vector α 2048 :=
  Vector.ofFn fun i =>
    F32.mul (F32.ofInt (window i).toInt) (F32.lit (Hanning.hanningWindow2048Multipliers i.val))

/-- The samples pass `k` transforms: its own 128 and those before them. -/
def samplesOf (s : List Int16) (k : Int) (i : Fin 2048) : Int16 :=
  sampleAt s (128 * (k + 1) - 2048 + i.val)

def spectrumAt (fft : Vector α 2048 → Vector (α × α) 1025) (s : List Int16) (k : Int) :
    Spectrum α :=
  realFftResults (fft (windowed (samplesOf s k)))

/-- The ring of samples after `k` chunks. -/
structure SampleInv (s : List Int16) (k : Nat) (this : SignatureGenerator α) : Prop where
  index : this.ringBufferOfSamplesIndex = 128 * k % 2048
  samples : Holds Eq this.ringBufferOfSamples (128 * k) (sampleAt s)

theorem start_sampleInv (s : List Int16) : SampleInv s 0 (start s : SignatureGenerator α) where
  index := rfl
  samples := by
    apply Holds.replicate
    intro q hq
    rw [sampleAt, if_neg (by omega)]

/-- The next chunk goes where the oldest samples stand. -/
theorem copyFromSlice_holds (s : List Int16) (k : Nat) (hk : k < s.length / 128)
    (ring : Vector Int16 2048) (h : Holds Eq ring (128 * k) (sampleAt s)) :
    ∃ ring', Holds Eq ring' (128 * (k + 1)) (sampleAt s) ∧
      copyFromSlice ring (128 * k % 2048) ((s.drop (128 * k)).take 128) = some ring' := by
  have hlen : 128 * k + 128 ≤ s.length := by omega
  have hslot : slot 2048 (128 * k) = 128 * k % 2048 := slot_natCast 2048 (128 * k)
  have hsucc : (128 * (k + 1) : Int) = 128 * k + (128 : Nat) := by push_cast; ring
  refine ⟨_, ?_, if_pos ⟨by omega, by simp; omega⟩⟩
  rw [hsucc]
  apply h.writeBlock 128 (by decide) (Dvd.intro _ rfl)
  · intro i hi hlt
    rw [Vector.getElem_ofFn]
    simp only [hslot]
    rw [if_pos ⟨by omega, by omega⟩, Nat.add_sub_cancel_left, sampleAt, if_pos (by omega),
      show (128 * k + i : Int).toNat = 128 * k + i by omega, List.getD_eq_getElem?_getD,
      List.getD_eq_getElem?_getD, List.getElem?_take_of_lt hi, List.getElem?_drop]
  · intro j hj hlt
    rw [hslot] at hj
    rw [Vector.getElem_ofFn]
    exact if_neg hj

/-- The ring read round from its index is the window of the latest samples. -/
theorem reorder_eq (s : List Int16) (k : Nat) (ring : Vector Int16 2048)
    (h : Holds Eq ring (128 * (k + 1)) (sampleAt s)) :
    (reorder ring (128 * (k + 1) % 2048) : Vector α 2048) = windowed (samplesOf s k) := by
  apply Vector.ext
  intro i hi
  rw [reorder, windowed, Vector.getElem_ofFn, Vector.getElem_ofFn]
  have hmask : (i + 128 * (k + 1) % 2048) &&& 2047 = slot 2048 (128 * (k + 1) - 2048 + i) := by
    rw [Nat.and_two_pow_sub_one_eq_mod _ 11]
    rw [slot]
    omega
  have hread := h (128 * (k + 1) - 2048 + i) (by omega) (by omega) (slot_lt 2048 (by decide) _)
  simp only [← hmask] at hread
  rw [samplesOf, ← hread]
  rfl

/-- A chunk goes into the ring, and the spectrum of its window into the ring of spectra. -/
theorem doFft_eq (fft : Vector α 2048 → Vector (α × α) 1025) (s : List Int16) (k : Nat)
    (hk : k < s.length / 128) (this : SignatureGenerator α) (h : SampleInv s k this) :
    ∃ ring reordered,
      let fed := { this with
        ringBufferOfSamples := ring
        ringBufferOfSamplesIndex := 128 * (k + 1) % 2048
        reorderedRingBufferOfSamples := reordered }
      SampleInv s (k + 1) fed ∧
        doFft fft this ((s.drop (128 * k)).take 128) = storeSpectrum fed (spectrumAt fft s k) := by
  obtain ⟨ring, hring, hcopy⟩ := copyFromSlice_holds s k hk _ h.samples
  have hindex : (128 * k % 2048 + 128) &&& 2047 = 128 * (k + 1) % 2048 := by
    rw [Nat.and_two_pow_sub_one_eq_mod _ 11]
    omega
  refine ⟨ring, windowed (samplesOf s k), ⟨rfl, by exact_mod_cast hring⟩, ?_⟩
  rw [doFft, h.index, hcopy, Option.bind_eq_bind, Option.bind_some, hindex]
  simp only [reorder_eq s k ring hring]
  rfl

def turn (o : Overflow) (fft : Vector α 2048 → Vector (α × α) 1025)
    (this : SignatureGenerator α) (chunk : List Int16) : Option (SignatureGenerator α) := do
  let this ← doFft fft this chunk
  spreadAndRecognize o this

/-- The state after `k` chunks: both the samples and the spectra are in step. -/
def Inv (fft : Vector α 2048 → Vector (α × α) 1025) (s : List Int16) (k : Nat)
    (this : SignatureGenerator α) : Prop :=
  SampleInv s k this ∧ SpreadRings.Inv (fun p => spectrumAt fft s p) k this

theorem turn_eq_pass {o : Overflow} {fft : Vector α 2048 → Vector (α × α) 1025} {s : List Int16}
    {k : Nat} (hk : k < s.length / 128) {this : SignatureGenerator α} (h : Inv fft s k this) :
    ∃ fed, SampleInv s (k + 1) fed ∧
      SpreadRings.Inv (fun p => spectrumAt fft s p) k fed ∧ fed.signature = this.signature ∧
      turn o fft this ((s.drop (128 * k)).take 128) = pass o (spectrumAt fft s k) fed := by
  obtain ⟨hsamples, hspectra⟩ := h
  obtain ⟨ring, reordered, hfed, heq⟩ := doFft_eq fft s k hk this hsamples
  refine ⟨_, hfed, ?_, rfl, ?_⟩
  · exact ⟨hspectra.fftIndex, hspectra.spreadIndex, hspectra.passes, hspectra.spectra,
      hspectra.spread⟩
  · rw [turn, heq]
    rfl

/-- The state after the first `n` chunks. -/
def turns (o : Overflow) (fft : Vector α 2048 → Vector (α × α) 1025) (s : List Int16) (n : Nat) :
    Option (SignatureGenerator α) :=
  (List.range n).foldlM (fun this k => turn o fft this ((s.drop (128 * k)).take 128)) (start s)

theorem turns_succ (o : Overflow) (fft : Vector α 2048 → Vector (α × α) 1025) (s : List Int16)
    (n : Nat) :
    turns o fft s (n + 1) =
      (turns o fft s n).bind fun this => turn o fft this ((s.drop (128 * n)).take 128) := by
  rw [turns, List.range_succ, List.foldlM_append]
  simp [turns]

/-- The state before any chunk has both rings in step. -/
theorem turns_inv {o : Overflow} {fft : Vector α 2048 → Vector (α × α) 1025} {s : List Int16}
    {n : Nat} (hs : n ≤ s.length / 128) {this : SignatureGenerator α}
    (h : turns o fft s n = some this) : Inv fft s n this ∧ (n < 2 ^ 32 ∨ o = .wraps) := by
  induction n generalizing this with
  | zero =>
    obtain rfl : start s = this := Option.some.inj h
    exact ⟨⟨start_sampleInv s, start_inv _ s⟩, Or.inl (by decide)⟩
  | succ n ih =>
    rw [turns_succ, Option.bind_eq_some_iff] at h
    obtain ⟨before, hturns, hturn⟩ := h
    obtain ⟨hinv, hn⟩ := ih (by omega) hturns
    obtain ⟨fed, hsamples, hspectra, -, heq⟩ := turn_eq_pass (o := o) (by omega) hinv
    rw [heq] at hturn
    have hfits := pass_fits hspectra hn hturn
    obtain ⟨hinv', hring, hindex⟩ := pass_inv hspectra hfits hturn
    exact ⟨⟨⟨hindex ▸ hsamples.index, hring ▸ hsamples.samples⟩, hinv'⟩, hfits⟩

theorem makeSignatureFromBuffer_eq_turns (o : Overflow)
    (fft : Vector α 2048 → Vector (α × α) 1025) (s : List Int16) :
    makeSignatureFromBuffer o fft s = (turns o fft s (s.length / 128)).map (·.signature) := by
  rw [makeSignatureFromBuffer, chunksExact, List.foldlM_map, Option.map_eq_bind]
  rfl

/-- After any number of turns the rings are in step with the buffer, and the signature is that
of the recorded passes. -/
theorem turns_spec (o : Overflow) (fft : Vector α 2048 → Vector (α × α) 1025) (s : List Int16)
    (n : Nat) (hs : n ≤ s.length / 128) (hn : n < 2 ^ 32) :
    (∀ this, turns o fft s n = some this → Inv fft s n this) ∧
      (turns o fft s n).map (·.signature) =
        (record o (fun p => spectrumAt fft s p) n).map
          (setBands ⟨sampleRateHz, UInt32.ofNat s.length, ∅⟩) := by
  have h := foldlM_range_simulates (Inv fft s) (·.signature)
    (fun this k => turn o fft this ((s.drop (128 * k)).take 128))
    (recordStep o fun p => spectrumAt fft s p) (start s) n
    ⟨start_sampleInv s, start_inv _ s⟩ ?_ ?_
  · rw [foldlM_recordStep o _ _ rfl] at h
    exact h
  · intro k hk this this' hinv hturn
    obtain ⟨fed, hsamples, hspectra, -, heq⟩ := turn_eq_pass (o := o) (by omega) hinv
    rw [heq] at hturn
    obtain ⟨hinv', hring, hindex⟩ := pass_inv hspectra (Or.inl (by omega)) hturn
    exact ⟨⟨hindex ▸ hsamples.index, hring ▸ hsamples.samples⟩, hinv'⟩
  · intro k hk this hinv
    obtain ⟨fed, -, hspectra, hsignature, heq⟩ := turn_eq_pass (o := o) (by omega) hinv
    rw [heq, ← hsignature]
    exact pass_signature hspectra o (by omega)

/-- The signature of a buffer is what the search records over the spectra of its chunks. -/
theorem makeSignatureFromBuffer_eq (o : Overflow) (fft : Vector α 2048 → Vector (α × α) 1025)
    (s : List Int16) (hs : s.length / 128 < 2 ^ 32) :
    makeSignatureFromBuffer o fft s =
      (record o (fun p => spectrumAt fft s p) (s.length / 128)).map
        (setBands ⟨sampleRateHz, UInt32.ofNat s.length, ∅⟩) := by
  rw [makeSignatureFromBuffer_eq_turns]
  exact (turns_spec o fft s (s.length / 128) le_rfl hs).2

end SampleRing
