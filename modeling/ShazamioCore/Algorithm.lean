import Mathlib
import ShazamioCore.Hanning
import ShazamioCore.SignatureFormat

/-!
# The fingerprint generator

The generator's state and the passes that drive it: samples go into a ring of 2048, each
chunk of 128 is transformed into one spectrum of a ring of 256, the spectrum is spread
over a second ring, and from the 46th pass on the pass 46 back is searched for peaks.
`none` is a panic. The transform is a parameter, fixed for a whole run.
-/
namespace Algorithm

open MachineInt SignatureFormat

variable {α : Type} [LinearOrder α] [F32 α]

abbrev Spectrum (α : Type) := Vector α 1025

abbrev Bands := AList fun _ : FrequencyBand => List FrequencyPeak

structure SignatureGenerator (α : Type) where
  ringBufferOfSamples : Vector Int16 2048
  reorderedRingBufferOfSamples : Vector α 2048
  fftOutputs : Vector (Spectrum α) 256
  spreadFftOutputs : Vector (Spectrum α) 256
  ringBufferOfSamplesIndex : Nat
  fftOutputsIndex : Nat
  spreadFftOutputsIndex : Nat
  numSpreadFftsDone : UInt32
  signature : DecodedSignature

def sampleRateHz : UInt32 := 16000

/-- The state `make_signature_from_buffer` starts from. -/
def start (s16Mono16khzBuffer : List Int16) : SignatureGenerator α where
  ringBufferOfSamples := Vector.replicate 2048 0
  ringBufferOfSamplesIndex := 0
  reorderedRingBufferOfSamples := Vector.replicate 2048 (F32.lit 0)
  fftOutputs := Vector.replicate 256 (Vector.replicate 1025 (F32.lit 0))
  fftOutputsIndex := 0
  spreadFftOutputs := Vector.replicate 256 (Vector.replicate 1025 (F32.lit 0))
  spreadFftOutputsIndex := 0
  numSpreadFftsDone := 0
  signature := ⟨sampleRateHz, UInt32.ofNat s16Mono16khzBuffer.length, ∅⟩

def copyFromSlice (ring : Vector Int16 2048) (index : Nat) (chunk : List Int16) :
    Option (Vector Int16 2048) :=
  if index + 128 ≤ 2048 ∧ chunk.length = 128 then
    some (Vector.ofFn fun j =>
      if index ≤ j.val ∧ j.val < index + 128 then chunk.getD (j.val - index) 0 else ring[j])
  else none

/-- The ring of samples from its index round, the latest at the end, under the window. -/
def reorder (ring : Vector Int16 2048) (index : Nat) : Vector α 2048 :=
  Vector.ofFn fun i =>
    F32.mul (F32.ofInt (ring.get ⟨(i.val + index) &&& 2047,
      Nat.lt_of_le_of_lt Nat.and_le_right (by decide)⟩).toInt)
      (F32.lit (Hanning.hanningWindow2048Multipliers i.val))

/-- The squared magnitude of a complex value, over `1 << 17`. -/
def power (z : α × α) : α :=
  F32.div (F32.add (F32.mul z.1 z.1) (F32.mul z.2 z.2)) (F32.ofInt (2 ^ 17))

def realFftResults (complexFftResults : Vector (α × α) 1025) : Spectrum α :=
  complexFftResults.map fun z => max (power z) (F32.lit (1 / 10 ^ 10))

/-- The spectrum of a pass, put where the index of the ring stands. -/
def storeSpectrum (this : SignatureGenerator α) (spectrum : Spectrum α) :
    Option (SignatureGenerator α) :=
  if h : this.fftOutputsIndex < 256 then
    some { this with
      fftOutputs := this.fftOutputs.set this.fftOutputsIndex spectrum
      fftOutputsIndex := (this.fftOutputsIndex + 1) &&& 255 }
  else none

def doFft (fft : Vector α 2048 → Vector (α × α) 1025) (this : SignatureGenerator α)
    (chunk : List Int16) : Option (SignatureGenerator α) := do
  let ring ← copyFromSlice this.ringBufferOfSamples this.ringBufferOfSamplesIndex chunk
  let index := (this.ringBufferOfSamplesIndex + 128) &&& 2047
  let reordered := reorder ring index
  storeSpectrum { this with
    ringBufferOfSamples := ring
    ringBufferOfSamplesIndex := index
    reorderedRingBufferOfSamples := reordered } (realFftResults (fft reordered))

/-- `(index + offset) & 255` on an `i32`, as an index into either ring of spectra. -/
def ringSlot (index : Nat) (offset : Int) : Fin 256 :=
  ⟨andI32 (index + offset) 255, Nat.lt_succ_of_le (andI32_le _ _ (by decide))⟩

/-- The first `k` steps of the in-place spread over frequencies: each position takes the
largest of itself and the two above it, which no step has reached yet. -/
def spreadPositions (spectrum : Spectrum α) : (k : Nat) → k ≤ 1023 → Spectrum α
  | 0, _ => spectrum
  | position + 1, h =>
    let results := spreadPositions spectrum position (by omega)
    results.set position
      (max (max results[position] results[position + 1]) results[position + 2])

/-- One cell of a former pass raised to the value the newest pass has there. -/
def raiseCell (ring : Vector (Spectrum α) 256) (slot : Fin 256) (position : Nat) (x : α)
    (h : position < 1025) : Vector (Spectrum α) 256 :=
  ring.set slot (ring[slot].set position (max ring[slot][position] x))

/-- The first `k` positions of the spread over time, each into three former passes. -/
def spreadFormer (ring : Vector (Spectrum α) 256) (index : Nat) (copy : Spectrum α) :
    (k : Nat) → k ≤ 1025 → Vector (Spectrum α) 256
  | 0, _ => ring
  | position + 1, h =>
    [1, 3, 6].foldl (fun ring formerFftNumber =>
        raiseCell ring (ringSlot index (-formerFftNumber)) position copy[position] h)
      (spreadFormer ring index copy position (by omega))

def doPeakSpreading (this : SignatureGenerator α) : Option (SignatureGenerator α) :=
  let realFftResults := this.fftOutputs[ringSlot this.fftOutputsIndex (-1)]
  if h : this.spreadFftOutputsIndex < 256 then
    let spreadFftResults := spreadPositions realFftResults 1023 (by decide)
    let spreadFftOutputs := this.spreadFftOutputs.set this.spreadFftOutputsIndex spreadFftResults
    some { this with
      spreadFftOutputs :=
        spreadFormer spreadFftOutputs this.spreadFftOutputsIndex spreadFftResults 1025 (by decide)
      spreadFftOutputsIndex := (this.spreadFftOutputsIndex + 1) &&& 255 }
  else none

def fftMinus46 (this : SignatureGenerator α) : Spectrum α :=
  this.fftOutputs[ringSlot this.fftOutputsIndex (-46)]

def fftMinus49 (this : SignatureGenerator α) : Spectrum α :=
  this.spreadFftOutputs[ringSlot this.spreadFftOutputsIndex (-49)]

def neighborOffsets : List Int := [-10, -7, -4, -3, 1, 2, 5, 8]

def otherOffsets : List Int :=
  [-53, -45, 165, 172, 179, 186, 193, 200, 214, 221, 228, 235, 242, 249]

def maxNeighborInFftMinus49 (this : SignatureGenerator α) (binPosition : Nat) : Option α :=
  neighborOffsets.foldlM (fun m neighborOffset => do
      let x ← (fftMinus49 this)[asUsize (binPosition + neighborOffset)]?
      return max m x)
    (F32.lit 0)

def maxNeighborInOtherAdjacentFfts (this : SignatureGenerator α) (binPosition : Nat)
    (maxNeighborInFftMinus49 : α) : Option α :=
  otherOffsets.foldlM (fun m otherOffset => do
      let otherFft := this.spreadFftOutputs[ringSlot this.spreadFftOutputsIndex otherOffset]
      let x ← otherFft[binPosition - 1]?
      return max m x)
    maxNeighborInFftMinus49

/-- The three nested tests of `do_peak_recognition` on one bin. -/
def isPeak (this : SignatureGenerator α) (binPosition : Nat) : Option Bool := do
  let x ← (fftMinus46 this)[binPosition]?
  let y ← (fftMinus49 this)[binPosition - 1]?
  if F32.lit (1 / 64) ≤ x ∧ y ≤ x then
    let m ← maxNeighborInFftMinus49 this binPosition
    if m < x then
      let m ← maxNeighborInOtherAdjacentFfts this binPosition m
      return decide (m < x)
    else return false
  else return false

/-- `x.ln().max(1.0 / 64.0) * 1477.3 + 6144.0`. -/
def logMagnitude (x : α) : α :=
  F32.add (F32.mul (max (F32.ln x) (F32.lit (1 / 64))) (F32.lit (14773 / 10))) (F32.lit 6144)

def peakVariation1 (before magnitude after : α) : α :=
  F32.sub (F32.sub (F32.mul magnitude (F32.lit 2)) before) after

def peakVariation2 (before magnitude after : α) : Int :=
  saturateI32 (F32.truncDiv (F32.mul (F32.sub after before) (F32.lit 32))
    (peakVariation1 before magnitude after))

/-- The landmark of a bin that passed the tests. The sum, the subtraction of 46 and the
assertion can each stop it. -/
def landmark (o : Overflow) (numSpreadFftsDone : UInt32) (spectrum : Spectrum α)
    (binPosition : Nat) : Option FrequencyPeak := do
  let fftPassNumber ← subU32 o numSpreadFftsDone 46
  let peakMagnitude := logMagnitude (← spectrum[binPosition]?)
  let peakMagnitudeBefore := logMagnitude (← spectrum[binPosition - 1]?)
  let peakMagnitudeAfter := logMagnitude (← spectrum[binPosition + 1]?)
  let sum ← addI32 o (binPosition * 64)
    (peakVariation2 peakMagnitudeBefore peakMagnitude peakMagnitudeAfter)
  let correctedPeakFrequencyBin := wrapU16 sum
  guard (F32.lit 0 ≤ peakVariation1 peakMagnitudeBefore peakMagnitude peakMagnitudeAfter)
  return ⟨fftPassNumber, saturateU16 (F32.trunc peakMagnitude), correctedPeakFrequencyBin⟩

def frequencyHz (α : Type) [LinearOrder α] [F32 α] (correctedPeakFrequencyBin : UInt16) : Int :=
  saturateI32 (F32.trunc (F32.mul (F32.ofInt correctedPeakFrequencyBin.toNat : α)
    (F32.lit (16000 / 2 / 1024 / 64))))

def frequencyBand (frequencyHz : Int) : Option FrequencyBand :=
  if 250 ≤ frequencyHz ∧ frequencyHz ≤ 519 then some ._250_520
  else if 520 ≤ frequencyHz ∧ frequencyHz ≤ 1449 then some ._520_1450
  else if 1450 ≤ frequencyHz ∧ frequencyHz ≤ 3499 then some ._1450_3500
  else if 3500 ≤ frequencyHz ∧ frequencyHz ≤ 5500 then some ._3500_5500
  else none

/-- `entry(band).or_default()`, then a push onto the list it holds. -/
def pushPeak (bands : Bands) (band : FrequencyBand) (peak : FrequencyPeak) : Bands :=
  bands.insert band ((bands.lookup band).getD [] ++ [peak])

/-- A peak in no band is passed over. -/
def recordPeak (o : Overflow) (numSpreadFftsDone : UInt32) (spectrum : Spectrum α)
    (bands : Bands) (binPosition : Nat) : Option Bands := do
  let peak ← landmark o numSpreadFftsDone spectrum binPosition
  match frequencyBand (frequencyHz α peak.correctedPeakFrequencyBin) with
  | none => return bands
  | some band => return pushPeak bands band peak

def binPositions : List Nat := List.range' 10 1005

def doPeakRecognition (o : Overflow) (this : SignatureGenerator α) :
    Option (SignatureGenerator α) := do
  let bands ← binPositions.foldlM (fun bands binPosition => do
      if ← isPeak this binPosition then
        recordPeak o this.numSpreadFftsDone (fftMinus46 this) bands binPosition
      else return bands)
    this.signature.frequencyBandToSoundPeaks
  return { this with signature := { this.signature with frequencyBandToSoundPeaks := bands } }

/-- What a pass does once its spectrum is stored. -/
def spreadAndRecognize (o : Overflow) (this : SignatureGenerator α) :
    Option (SignatureGenerator α) := do
  let this ← doPeakSpreading this
  let numSpreadFftsDone ← addU32 o this.numSpreadFftsDone 1
  let this := { this with numSpreadFftsDone }
  if 46 ≤ numSpreadFftsDone then doPeakRecognition o this else return this

def chunksExact (n : Nat) (buffer : List Int16) : List (List Int16) :=
  (List.range (buffer.length / n)).map fun k => (buffer.drop (n * k)).take n

def makeSignatureFromBuffer (o : Overflow) (fft : Vector α 2048 → Vector (α × α) 1025)
    (s16Mono16khzBuffer : List Int16) : Option DecodedSignature := do
  let this ← (chunksExact 128 s16Mono16khzBuffer).foldlM (fun this chunk => do
      let this ← doFft fft this chunk
      spreadAndRecognize o this)
    (start s16Mono16khzBuffer)
  return this.signature

end Algorithm
