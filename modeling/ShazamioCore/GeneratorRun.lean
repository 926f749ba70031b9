import Mathlib
import ShazamioCore.LoopRules
import ShazamioCore.SpreadRings

/-!
# The generator over a run of spectra

The loop of `make_signature_from_buffer` from the spectra on. It records, pass by pass and
bin by bin, the landmarks of the peaks the ring-free search finds, as long as the number
of passes fits its 32-bit counter.
-/
namespace GeneratorRun

open MachineInt SignatureFormat Algorithm PeakDetection RingBuffer SpreadRings LoopRules

variable {α : Type} [LinearOrder α] [F32 α]

def pass (o : Overflow) (spectrum : Spectrum α) (this : SignatureGenerator α) :
    Option (SignatureGenerator α) := do
  let this ← storeSpectrum this spectrum
  spreadAndRecognize o this

/-- A turn of the loop up to the point where it may search. -/
def advance (o : Overflow) (spectrum : Spectrum α) (this : SignatureGenerator α) :
    Option (SignatureGenerator α) := do
  let this ← storeSpectrum this spectrum
  let this ← doPeakSpreading this
  let numSpreadFftsDone ← addU32 o this.numSpreadFftsDone 1
  return { this with numSpreadFftsDone }

theorem pass_eq_advance (o : Overflow) (spectrum : Spectrum α) (this : SignatureGenerator α) :
    pass o spectrum this = (advance o spectrum this).bind fun this =>
      if 46 ≤ this.numSpreadFftsDone then doPeakRecognition o this else some this := by
  simp only [pass, advance, spreadAndRecognize, Option.bind_eq_bind, Option.bind_assoc,
    Option.bind_some, Option.pure_def]

def run (o : Overflow) (r : Nat → Spectrum α) (buffer : List Int16) (n : Nat) :
    Option (SignatureGenerator α) :=
  (List.range n).foldlM (fun this p => pass o (r p) this) (start buffer)

theorem run_succ (o : Overflow) (r : Nat → Spectrum α) (buffer : List Int16) (n : Nat) :
    run o r buffer (n + 1) = (run o r buffer n).bind (pass o (r n)) := by
  rw [run, List.range_succ, List.foldlM_append]
  simp [run]

def setBands (signature : DecodedSignature) (bands : Bands) : DecodedSignature :=
  { signature with frequencyBandToSoundPeaks := bands }

@[simp] theorem setBands_setBands (signature : DecodedSignature) (bands : Bands) :
    setBands (setBands signature bands) = setBands signature := rfl

@[simp] theorem setBands_bands (signature : DecodedSignature) (bands : Bands) :
    (setBands signature bands).frequencyBandToSoundPeaks = bands := rfl

def recordPass (o : Overflow) (r : Nat → Spectrum α) (bands : Bands) (p : Nat) : Option Bands :=
  (peakBins r p).foldlM (recordPeak o (UInt32.ofNat (p + 46)) (r p)) bands

/-- The passes that `n` passes let be searched. -/
def examined (n : Nat) : List Nat := List.range (n - 45)

def newlyExamined (n : Nat) : List Nat := if 45 ≤ n then [n - 45] else []

def record (o : Overflow) (r : Nat → Spectrum α) (n : Nat) : Option Bands :=
  (examined n).foldlM (recordPass o r) ∅

theorem mem_examined (n p : Nat) : p ∈ examined n ↔ p + 46 ≤ n := by
  rw [examined, List.mem_range]
  omega

theorem examined_succ (n : Nat) : examined (n + 1) = examined n ++ newlyExamined n := by
  unfold examined newlyExamined
  split
  · rw [show n + 1 - 45 = n - 45 + 1 by omega, List.range_succ]
  · rw [show n + 1 - 45 = n - 45 by omega, List.append_nil]

section Step

variable {r : Nat → Spectrum α}

theorem doPeakRecognition_eq {p : Nat} {this : SignatureGenerator α} (h : Inv r (p + 46) this)
    (o : Overflow) :
    doPeakRecognition o this =
      (recordPass o r this.signature.frequencyBandToSoundPeaks p).map fun bands =>
        { this with signature := setBands this.signature bands } := by
  have htest : ∀ b ∈ binPositions, isPeak this b = some (decide (IsPeak r p b)) := by
    intro b hb
    rw [mem_binPositions] at hb
    exact isPeak_eq h b hb.1 hb.2
  have hloop := foldlM_test (isPeak this) _
    (recordPeak o this.numSpreadFftsDone (fftMinus46 this)) binPositions
    this.signature.frequencyBandToSoundPeaks htest
  rw [doPeakRecognition, hloop, h.passes, fftMinus46_eq h, Option.map_eq_bind]
  rfl

/-- What a pass does before it searches: both rings move on, and the counter with them. -/
theorem advance_spec {n : Nat} {this : SignatureGenerator α} (h : Inv r n this) (o : Overflow)
    (hn : n + 1 < 2 ^ 32 ∨ o = .wraps) :
    ∃ fftOutputs spreadFftOutputs,
      let searched := { this with
        fftOutputs := fftOutputs
        fftOutputsIndex := (n + 1) % 256
        spreadFftOutputs := spreadFftOutputs
        spreadFftOutputsIndex := (n + 1) % 256
        numSpreadFftsDone := UInt32.ofNat (n + 1) }
      Inv r (n + 1) searched ∧ advance o (r n) this = some searched := by
  obtain ⟨fftOutputs, hspectra, hstore⟩ := storeSpectrum_spec h.fftIndex h.spectra
  obtain ⟨spreadFftOutputs, hspread, hspreading⟩ := doPeakSpreading_spec
    { this with fftOutputs := fftOutputs, fftOutputsIndex := (n + 1) % 256 }
    rfl hspectra h.spreadIndex h.spread
  have hcount : addU32 o (UInt32.ofNat n) 1 = some (UInt32.ofNat (n + 1)) := by
    have hsum : UInt32.ofNat n + 1 = UInt32.ofNat (n + 1) := by rw [UInt32.ofNat_add]; rfl
    rw [← hsum]
    apply if_pos
    rcases hn with hn | hn
    · left
      rw [UInt32.toNat_ofNat', Nat.mod_eq_of_lt (by omega)]
      exact hn
    · exact Or.inr hn
  refine ⟨fftOutputs, spreadFftOutputs, ⟨rfl, rfl, rfl, ?_, ?_⟩, ?_⟩
  · exact_mod_cast hspectra
  · exact_mod_cast hspread
  · rw [advance, hstore, Option.bind_eq_bind, Option.bind_some, hspreading, Option.bind_eq_bind,
      Option.bind_some, h.passes, hcount]
    rfl

theorem inv_setSignature {n : Nat} {this : SignatureGenerator α} (h : Inv r n this)
    (signature : DecodedSignature) : Inv r n { this with signature := signature } :=
  ⟨h.fftIndex, h.spreadIndex, h.passes, h.spectra, h.spread⟩

theorem doPeakRecognition_eq_some {this this' : SignatureGenerator α} {o : Overflow}
    (h : doPeakRecognition o this = some this') :
    ∃ signature, this' = { this with signature := signature } := by
  simp only [doPeakRecognition, Option.bind_eq_bind, Option.bind_eq_some_iff,
    Option.pure_def, Option.some.injEq] at h
  obtain ⟨bands, -, rfl⟩ := h
  exact ⟨_, rfl⟩

/-- A pass keeps the invariant and leaves the samples alone. -/
theorem pass_inv {n : Nat} {this this' : SignatureGenerator α} (h : Inv r n this) {o : Overflow}
    (hn : n + 1 < 2 ^ 32 ∨ o = .wraps) (hpass : pass o (r n) this = some this') :
    Inv r (n + 1) this' ∧ this'.ringBufferOfSamples = this.ringBufferOfSamples ∧
      this'.ringBufferOfSamplesIndex = this.ringBufferOfSamplesIndex := by
  obtain ⟨fftOutputs, spreadFftOutputs, hinv, heq⟩ := advance_spec h o hn
  rw [pass_eq_advance, heq, Option.bind_some] at hpass
  split at hpass
  · obtain ⟨signature, rfl⟩ := doPeakRecognition_eq_some hpass
    exact ⟨inv_setSignature hinv signature, rfl, rfl⟩
  · obtain rfl := Option.some.inj hpass
    exact ⟨hinv, rfl, rfl⟩

/-- A build that checks for overflow stops before the counter would wrap around. -/
theorem advance_fits {n : Nat} {this this' : SignatureGenerator α} (h : Inv r n this)
    {o : Overflow} (hn : n < 2 ^ 32 ∨ o = .wraps) (hadvance : advance o (r n) this = some this') :
    n + 1 < 2 ^ 32 ∨ o = .wraps := by
  obtain ⟨fftOutputs, hspectra, hstore⟩ := storeSpectrum_spec h.fftIndex h.spectra
  obtain ⟨spreadFftOutputs, -, hspreading⟩ := doPeakSpreading_spec
    { this with fftOutputs := fftOutputs, fftOutputsIndex := (n + 1) % 256 }
    rfl hspectra h.spreadIndex h.spread
  rcases hn with hn | hn
  · rw [advance, hstore, Option.bind_eq_bind, Option.bind_some, hspreading, Option.bind_eq_bind,
      Option.bind_some, h.passes, addU32] at hadvance
    split at hadvance
    · rename_i hfits
      rw [UInt32.toNat_ofNat', Nat.mod_eq_of_lt hn] at hfits
      exact hfits
    · cases hadvance
  · exact Or.inr hn

theorem pass_fits {n : Nat} {this this' : SignatureGenerator α} (h : Inv r n this) {o : Overflow}
    (hn : n < 2 ^ 32 ∨ o = .wraps) (hpass : pass o (r n) this = some this') :
    n + 1 < 2 ^ 32 ∨ o = .wraps := by
  rw [pass_eq_advance, Option.bind_eq_some_iff] at hpass
  obtain ⟨advanced, hadvance, -⟩ := hpass
  exact advance_fits h hn hadvance

def recordStep (o : Overflow) (r : Nat → Spectrum α) (signature : DecodedSignature) (n : Nat) :
    Option DecodedSignature :=
  ((newlyExamined n).foldlM (recordPass o r) signature.frequencyBandToSoundPeaks).map
    (setBands signature)

theorem pass_signature {n : Nat} {this : SignatureGenerator α} (h : Inv r n this) (o : Overflow)
    (hn : n + 1 < 2 ^ 32) :
    (pass o (r n) this).map (·.signature) = recordStep o r this.signature n := by
  obtain ⟨fftOutputs, spreadFftOutputs, hinv, heq⟩ := advance_spec h o (Or.inl hn)
  have hcount : 46 ≤ UInt32.ofNat (n + 1) ↔ 45 ≤ n := by
    rw [UInt32.le_iff_toNat_le, UInt32.toNat_ofNat', Nat.mod_eq_of_lt hn]
    simp
  rw [pass_eq_advance, heq, Option.bind_some, recordStep, newlyExamined]
  by_cases h45 : 45 ≤ n
  · obtain ⟨p, rfl⟩ : ∃ p, n = p + 45 := ⟨n - 45, by omega⟩
    rw [if_pos (hcount.mpr h45), if_pos h45, doPeakRecognition_eq hinv o,
      show p + 45 - 45 = p by omega, List.foldlM_cons]
    simp [Function.comp_def]
  · rw [if_neg (mt hcount.mp h45), if_neg h45]
    rfl

/-- When the counter wraps around to zero, a pass goes by without a search. -/
theorem pass_wrapped {n : Nat} {this : SignatureGenerator α} (h : Inv r n this)
    (hn : n + 1 = 2 ^ 32) :
    ∃ this', pass .wraps (r n) this = some this' ∧ this'.signature = this.signature := by
  obtain ⟨fftOutputs, spreadFftOutputs, -, heq⟩ := advance_spec h .wraps (Or.inr rfl)
  have hzero : ¬46 ≤ UInt32.ofNat (n + 1) := by
    rw [hn]
    decide
  rw [pass_eq_advance, heq, Option.bind_some]
  exact ⟨_, if_neg hzero, rfl⟩

end Step

theorem record_succ (o : Overflow) (r : Nat → Spectrum α) (n : Nat) :
    record o r (n + 1) = (record o r n).bind ((newlyExamined n).foldlM (recordPass o r)) := by
  rw [record, examined_succ, List.foldlM_append]
  rfl

theorem foldlM_recordStep (o : Overflow) (r : Nat → Spectrum α) (signature : DecodedSignature)
    (hempty : signature.frequencyBandToSoundPeaks = ∅) (n : Nat) :
    (List.range n).foldlM (recordStep o r) signature =
      (record o r n).map (setBands signature) := by
  induction n with
  | zero =>
    cases signature
    subst hempty
    rfl
  | succ n ih =>
    rw [List.range_succ, List.foldlM_append, ih, record_succ]
    cases record o r n with
    | none => rfl
    | some bands => simp [recordStep]

/-- A run of any length keeps the rings in step: it has stopped, or its counter wraps. -/
theorem run_inv {o : Overflow} {r : Nat → Spectrum α} {buffer : List Int16} {n : Nat}
    {this : SignatureGenerator α} (h : run o r buffer n = some this) :
    Inv r n this ∧ (n < 2 ^ 32 ∨ o = .wraps) := by
  induction n generalizing this with
  | zero =>
    obtain rfl : start buffer = this := Option.some.inj h
    exact ⟨start_inv r buffer, Or.inl (by decide)⟩
  | succ n ih =>
    rw [run_succ, Option.bind_eq_some_iff] at h
    obtain ⟨before, hrun, hpass⟩ := h
    obtain ⟨hinv, hn⟩ := ih hrun
    have hfits := pass_fits hinv hn hpass
    exact ⟨(pass_inv hinv hfits hpass).1, hfits⟩

/-- A run keeps the rings in step, and its signature is what the search records. -/
theorem run_spec (o : Overflow) (r : Nat → Spectrum α) (buffer : List Int16) (n : Nat)
    (hn : n < 2 ^ 32) :
    (∀ this, run o r buffer n = some this → Inv r n this) ∧
      (run o r buffer n).map (·.signature) =
        (record o r n).map (setBands (start buffer : SignatureGenerator α).signature) := by
  have h := foldlM_range_simulates (Inv r) (·.signature) (fun this p => pass o (r p) this)
    (recordStep o r) (start buffer) n (start_inv r buffer)
    (fun k hk this this' hinv hpass => (pass_inv hinv (Or.inl (by omega)) hpass).1)
    (fun k hk this hinv => pass_signature hinv o (by omega))
  rw [foldlM_recordStep o r _ rfl] at h
  exact h

end GeneratorRun
