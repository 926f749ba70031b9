import Mathlib
import ShazamioCore.ChunkRuns

/-!
# The middle segment

What of a file is analysed: the whole of it, or as many samples of its middle as the
duration takes. A sub-slice is kept as its two ends in the buffer it borrows from, so two
of them can be compared by where they lie. `usize` is 32 or 64 bits wide.
-/
namespace Segment

open MachineInt SignatureFormat Algorithm ChunkRuns

inductive UsizeWidth where
  | w32
  | w64
  deriving DecidableEq, Repr

namespace UsizeWidth

def bits : UsizeWidth → Nat
  | w32 => 32
  | w64 => 64

def max (width : UsizeWidth) : Nat := 2 ^ width.bits - 1

theorem lt_two_pow {width : UsizeWidth} {n : Nat} (h : n ≤ width.max) : n < 2 ^ width.bits := by
  have hpos := Nat.two_pow_pos width.bits
  rw [max] at h
  omega

end UsizeWidth

/-- A part of a buffer, borrowed where it stands. -/
structure Slice (samples : List Int16) where
  start : Nat
  stop : Nat
  start_le_stop : start ≤ stop
  stop_le_length : stop ≤ samples.length
  deriving DecidableEq

namespace Slice

variable {samples : List Int16}

def whole (samples : List Int16) : Slice samples :=
  ⟨0, samples.length, Nat.zero_le _, Nat.le_refl _⟩

def index (samples : List Int16) (start stop : Nat) : Option (Slice samples) :=
  if h : start ≤ stop ∧ stop ≤ samples.length then some ⟨start, stop, h.1, h.2⟩ else none

def toVec (slice : Slice samples) : List Int16 :=
  (samples.drop slice.start).take (slice.stop - slice.start)

@[simp] theorem length_toVec (slice : Slice samples) :
    slice.toVec.length = slice.stop - slice.start := by
  have hle := slice.stop_le_length
  simp only [toVec, List.length_take, List.length_drop]
  omega

/-- A buffer is what lies before a part, the part, and what lies after it. -/
theorem split (slice : Slice samples) :
    samples = samples.take slice.start ++ (slice.toVec ++ samples.drop slice.stop) := by
  have hle := slice.start_le_stop
  have hdrop : samples.drop slice.stop =
      (samples.drop slice.start).drop (slice.stop - slice.start) := by
    rw [List.drop_drop]
    congr 1
    omega
  rw [toVec, hdrop, List.take_append_drop, List.take_append_drop]

def Within (inner outer : Slice samples) : Prop :=
  outer.start ≤ inner.start ∧ inner.stop ≤ outer.stop

theorem within_whole (slice : Slice samples) : slice.Within (whole samples) :=
  ⟨Nat.zero_le _, slice.stop_le_length⟩

end Slice

def defaultSegmentSeconds : UInt32 := 12

/-- `duration_seconds as u64 * SAMPLE_RATE_HZ as u64`, cut down to what a `usize` holds. -/
def segmentSamples (width : UsizeWidth) (o : Overflow) (durationSeconds : UInt32) : Option Nat := do
  let product ← mulUnsigned o 64 durationSeconds.toNat sampleRateHz.toNat
  return min product width.max

def middleSegment (width : UsizeWidth) (o : Overflow) (samples : List Int16)
    (segmentDurationSeconds : Option UInt32) : Option (Slice samples) := do
  let durationSeconds := segmentDurationSeconds.getD defaultSegmentSeconds
  let segmentSamples ← segmentSamples width o durationSeconds
  if samples.length ≤ segmentSamples then
    return Slice.whole samples
  else
    let middle := samples.length / 2
    let halfSegment := segmentSamples / 2
    let start ← subUnsigned o width.bits middle halfSegment
    let stop ← addUnsigned o width.bits middle halfSegment
    Slice.index samples start stop

/-- `make_signature`, from the samples it decodes on. -/
def makeSignature {α : Type} [LinearOrder α] [F32 α] (width : UsizeWidth) (o : Overflow)
    (fft : Vector α 2048 → Vector (α × α) 1025) (rawPcmSamples : List Int16)
    (segmentDurationSeconds : Option UInt32) : Option DecodedSignature := do
  let segment ← middleSegment width o rawPcmSamples segmentDurationSeconds
  makeSignatureFromBuffer o fft segment.toVec

/-- The samples a duration takes, in unbounded integers. -/
def wanted (segmentDurationSeconds : Option UInt32) : Nat :=
  16000 * (segmentDurationSeconds.getD defaultSegmentSeconds).toNat

/-- What is analysed of a buffer for a duration. -/
structure Centred (samples : List Int16) (duration : Nat) (slice : Slice samples) : Prop where
  whole : samples.length ≤ duration → slice = Slice.whole samples
  length : duration < samples.length → slice.toVec.length = duration
  centred : duration < samples.length →
    samples.length - slice.stop = slice.start ∨ samples.length - slice.stop = slice.start + 1

theorem segmentSamples_eq (width : UsizeWidth) (o : Overflow) (durationSeconds : UInt32) :
    segmentSamples width o durationSeconds =
      some (min (16000 * durationSeconds.toNat) width.max) := by
  have hlt := durationSeconds.toNat_lt
  have hrate : sampleRateHz.toNat = 16000 := rfl
  rw [segmentSamples, hrate, mulUnsigned_fits _ _ _ _ (by omega), Nat.mul_comm]
  rfl

/-- The segment of a long buffer: as many samples to each side of its middle. -/
theorem middleSegment_long (width : UsizeWidth) (o : Overflow) (samples : List Int16)
    (hfit : samples.length ≤ width.max) (duration : Option UInt32)
    (hlong : wanted duration < samples.length) :
    ∃ slice : Slice samples, middleSegment width o samples duration = some slice ∧
      slice.start = samples.length / 2 - wanted duration / 2 ∧
      slice.stop = samples.length / 2 + wanted duration / 2 := by
  have hbits := UsizeWidth.lt_two_pow hfit
  have hsamples : segmentSamples width o (duration.getD defaultSegmentSeconds) =
      some (wanted duration) := by
    rw [segmentSamples_eq, ← wanted, Nat.min_eq_left (by omega)]
  have hstart : subUnsigned o width.bits (samples.length / 2) (wanted duration / 2) =
      some (samples.length / 2 - wanted duration / 2) :=
    subUnsigned_fits _ _ _ _ (by omega) (by omega)
  have hstop : addUnsigned o width.bits (samples.length / 2) (wanted duration / 2) =
      some (samples.length / 2 + wanted duration / 2) :=
    addUnsigned_fits _ _ _ _ (by omega)
  refine ⟨⟨samples.length / 2 - wanted duration / 2, samples.length / 2 + wanted duration / 2,
    by omega, by omega⟩, ?_, rfl, rfl⟩
  simp only [middleSegment, hsamples, hstart, hstop, Option.bind_eq_bind, Option.bind_some]
  rw [if_neg (by omega), Slice.index, dif_pos ⟨by omega, by omega⟩]

theorem middleSegment_short (width : UsizeWidth) (o : Overflow) (samples : List Int16)
    (hfit : samples.length ≤ width.max) (duration : Option UInt32)
    (hshort : samples.length ≤ wanted duration) :
    middleSegment width o samples duration = some (Slice.whole samples) := by
  have hsamples := segmentSamples_eq width o (duration.getD defaultSegmentSeconds)
  rw [← wanted] at hsamples
  rw [middleSegment, hsamples, Option.bind_eq_bind, Option.bind_some,
    if_pos (Nat.le_min.mpr ⟨hshort, hfit⟩)]
  rfl

/-- Nothing overflows and no index is out of bounds: a duration selects the centred window. -/
theorem middleSegment_spec (width : UsizeWidth) (o : Overflow) (samples : List Int16)
    (hfit : samples.length ≤ width.max) (duration : Option UInt32) :
    ∃ slice, middleSegment width o samples duration = some slice ∧
      Centred samples (wanted duration) slice := by
  rcases Nat.lt_or_ge (wanted duration) samples.length with hlong | hshort
  · obtain ⟨slice, heq, hstart, hstop⟩ := middleSegment_long width o samples hfit duration hlong
    have heven : wanted duration % 2 = 0 := by
      rw [wanted]
      omega
    refine ⟨slice, heq, ?_⟩
    constructor
    · intro h
      omega
    · intro _
      rw [Slice.length_toVec]
      omega
    · intro _
      omega
  · refine ⟨_, middleSegment_short width o samples hfit duration hshort, ?_⟩
    constructor
    · intro _
      rfl
    · intro h
      omega
    · intro h
      omega

/-- The window of a duration, whatever the widths and whatever overflow does: centred, and
within the window of every longer duration. -/
theorem middleSegment_centred (width : UsizeWidth) (o : Overflow) (samples : List Int16)
    (hfit : samples.length ≤ width.max) (duration : Option UInt32) :
    ∃ slice, middleSegment width o samples duration = some slice ∧
      Centred samples (wanted duration) slice ∧
      ∀ longer, wanted duration ≤ wanted longer →
        ∃ outer, middleSegment width o samples longer = some outer ∧ slice.Within outer := by
  obtain ⟨slice, heq, hcentred⟩ := middleSegment_spec width o samples hfit duration
  refine ⟨slice, heq, hcentred, ?_⟩
  intro longer hle
  rcases Nat.lt_or_ge (wanted longer) samples.length with hlong | hshort
  · obtain ⟨outer, houter, hstart, hstop⟩ := middleSegment_long width o samples hfit longer hlong
    obtain ⟨inner, hinner, hstart', hstop'⟩ :=
      middleSegment_long width o samples hfit duration (by omega)
    obtain rfl : inner = slice := Option.some.inj (hinner.symm.trans heq)
    refine ⟨outer, houter, ?_, ?_⟩
    · omega
    · omega
  · exact ⟨_, middleSegment_short width o samples hfit longer hshort, slice.within_whole⟩

/-- The length a signature declares is that of what was analysed. -/
theorem makeSignature_numberSamples {α : Type} [LinearOrder α] [F32 α] (width : UsizeWidth)
    (o : Overflow) (fft : Vector α 2048 → Vector (α × α) 1025) (samples : List Int16)
    (hfit : samples.length ≤ width.max) (duration : Option UInt32) (signature : DecodedSignature)
    (h : makeSignature width o fft samples duration = some signature) :
    signature.numberSamples = UInt32.ofNat (min samples.length (wanted duration)) := by
  rw [makeSignature, Option.bind_eq_bind, Option.bind_eq_some_iff] at h
  obtain ⟨segment, hsegment, hmake⟩ := h
  obtain ⟨slice, heq, hcentred⟩ := middleSegment_spec width o samples hfit duration
  obtain rfl : slice = segment := Option.some.inj (heq.symm.trans hsegment)
  rw [(makeSignatureFromBuffer_labels hmake).2]
  rcases Nat.lt_or_ge (wanted duration) samples.length with hlong | hshort
  · rw [hcentred.length hlong, Nat.min_eq_right (Nat.le_of_lt hlong)]
  · rw [hcentred.whole hshort, Slice.length_toVec, Nat.min_eq_left hshort]
    rfl

/-- A second and two seconds of three and a sample: both cut, one within the other. -/
theorem middleSegment_centred_nested :
    ∃ slice outer, middleSegment .w32 .panics (List.replicate 48001 0) (some 1) = some slice ∧
      middleSegment .w32 .panics (List.replicate 48001 0) (some 2) = some outer ∧
      slice.toVec.length = 16000 ∧ outer.toVec.length = 32000 ∧ slice.Within outer := by
  have hlength : (List.replicate 48001 (0 : Int16)).length = 48001 := List.length_replicate
  have hfit : (List.replicate 48001 (0 : Int16)).length ≤ UsizeWidth.w32.max := by
    rw [hlength]
    decide
  obtain ⟨slice, hslice, hcentred, hwithin⟩ :=
    middleSegment_centred .w32 .panics (List.replicate 48001 0) hfit (some 1)
  obtain ⟨outer, houter, hcentred', -⟩ :=
    middleSegment_centred .w32 .panics (List.replicate 48001 0) hfit (some 2)
  obtain ⟨outer', houter', hinner⟩ := hwithin (some 2) (by decide)
  obtain rfl : outer' = outer := Option.some.inj (houter'.symm.trans houter)
  refine ⟨slice, outer', hslice, houter', ?_, ?_, hinner⟩
  · exact hcentred.length (by rw [hlength]; decide)
  · exact hcentred'.length (by rw [hlength]; decide)

end Segment
