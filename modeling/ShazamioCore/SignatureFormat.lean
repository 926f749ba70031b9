import Mathlib
import ShazamioCore.ByteCursor
import ShazamioCore.F32

/-!
# The binary signature

`encodeToBinary` writes a 48-byte header, the length of the body, and one section for
each band of the map in ascending order, then seeks back three times to fill in both
lengths and the checksum. `none` is a panic: an unsupported rate, a peak out of order,
or an overflow in a build that checks for it. Writing to memory never fails, so the
error half of the source's result has no counterpart.
-/
namespace SignatureFormat

open ByteCursor MachineInt

structure FrequencyPeak where
  fftPassNumber : UInt32
  peakMagnitude : UInt16
  correctedPeakFrequencyBin : UInt16
  deriving DecidableEq, Repr

inductive FrequencyBand where
  | _250_520
  | _520_1450
  | _1450_3500
  | _3500_5500
  deriving DecidableEq, Repr

namespace FrequencyBand

def discriminant : FrequencyBand → Nat
  | _250_520 => 0
  | _520_1450 => 1
  | _1450_3500 => 2
  | _3500_5500 => 3

def cmp (self other : FrequencyBand) : Ordering :=
  compare (self.discriminant : Int) (other.discriminant : Int)

def partialCmp (self other : FrequencyBand) : Option Ordering := some (self.cmp other)

end FrequencyBand

abbrev BandEntry := Sigma fun _ : FrequencyBand => List FrequencyPeak

/-- The map is its entries in the order it iterates them, with no key twice. -/
structure DecodedSignature where
  sampleRateHz : UInt32
  numberSamples : UInt32
  frequencyBandToSoundPeaks : AList fun _ : FrequencyBand => List FrequencyPeak

/-- The id of a supported rate; any other panics. -/
def sampleRateId (sampleRateHz : UInt32) : Option UInt32 :=
  match sampleRateHz.toNat with
  | 8000 => some 1
  | 11025 => some 2
  | 16000 => some 3
  | 32000 => some 4
  | 44100 => some 5
  | 48000 => some 6
  | _ => none

/-- `(sample_rate_hz as f32 * 0.24) as u32`, with both roundings. -/
def padSamples (sampleRateHz : UInt32) : UInt32 :=
  saturateU32 ⌊F32.binary32 (F32.binary32 sampleRateHz.toNat * F32.binary32 (24 / 100))⌋

/-- One pass of the loop over a band's peaks: the payload so far and the running pass
number. The assertion and both subtractions can stop it. -/
def writePeak (o : Overflow) (state : Cursor × UInt32) (peak : FrequencyPeak) :
    Option (Cursor × UInt32) := do
  let (peaksCursor, fftPassNumber) := state
  guard (fftPassNumber ≤ peak.fftPassNumber)
  let gap ← subU32 o peak.fftPassNumber fftPassNumber
  let (peaksCursor, fftPassNumber) :=
    if 255 ≤ gap then
      ((peaksCursor.writeU8 0xff).writeU32 peak.fftPassNumber, peak.fftPassNumber)
    else (peaksCursor, fftPassNumber)
  let delta ← subU32 o peak.fftPassNumber fftPassNumber
  let peaksCursor := peaksCursor.writeU8 delta.toUInt8
  let peaksCursor := peaksCursor.writeU16 peak.peakMagnitude
  let peaksCursor := peaksCursor.writeU16 peak.correctedPeakFrequencyBin
  return (peaksCursor, peak.fftPassNumber)

def peaksBuffer (o : Overflow) (peaks : List FrequencyPeak) : Option (List UInt8) :=
  (peaks.foldlM (writePeak o) (Cursor.empty, 0)).map fun state => state.1.buffer

def paddingLength (payload : Nat) : Nat := (4 - payload % 4) % 4

def writePadding (cursor : Cursor) : Nat → Cursor
  | 0 => cursor
  | n + 1 => writePadding (cursor.writeU8 0) n

/-- One pass of the loop over the sorted bands. -/
def writeBand (o : Overflow) (cursor : Cursor) (entry : BandEntry) : Option Cursor := do
  let peaksBuffer ← peaksBuffer o entry.2
  let cursor := cursor.writeU32 (0x60030040 + UInt32.ofNat entry.1.discriminant)
  let cursor := cursor.writeU32 (UInt32.ofNat peaksBuffer.length)
  let cursor := cursor.write peaksBuffer
  return writePadding cursor (paddingLength (UInt32.ofNat peaksBuffer.length).toNat)

/-- `sort_by` on the bands: a stable sort, so insertion gives the order it gives. -/
def sortedEntries (entries : List BandEntry) : List BandEntry :=
  entries.insertionSort fun x y => x.1.cmp y.1 ≠ .gt

/-- Everything `encode_to_binary` appends, with zeros where it will seek back to. -/
def appendAll (o : Overflow) (self : DecodedSignature) : Option Cursor := do
  let cursor := Cursor.empty
  let cursor := cursor.writeU32 0xcafe2580
  let cursor := cursor.writeU32 0
  let cursor := cursor.writeU32 0
  let cursor := cursor.writeU32 0x94119c00
  let cursor := cursor.writeU32 0
  let cursor := cursor.writeU32 0
  let cursor := cursor.writeU32 0
  let rateId ← sampleRateId self.sampleRateHz
  let cursor := cursor.writeU32 (rateId <<< 27)
  let cursor := cursor.writeU32 0
  let cursor := cursor.writeU32 0
  let numberSamplesPlus ← addU32 o self.numberSamples (padSamples self.sampleRateHz)
  let cursor := cursor.writeU32 numberSamplesPlus
  let cursor := cursor.writeU32 (((15 : UInt32) <<< 19) + 0x40000)
  let cursor := cursor.writeU32 0x40000000
  let cursor := cursor.writeU32 0
  (sortedEntries self.frequencyBandToSoundPeaks.entries).foldlM (writeBand o) cursor

/-- Both lengths and the checksum, written over the zeros that hold their places. The
checksum is taken of what the buffer holds at that moment. -/
def patch (o : Overflow) (crc32 : List UInt8 → UInt32) (cursor : Cursor) :
    Option (List UInt8) := do
  let bufferSize := UInt32.ofNat cursor.position
  let cursor := cursor.seek 8
  let bodySize ← subU32 o bufferSize 48
  let cursor := cursor.writeU32 bodySize
  let cursor := cursor.seek (48 + 4)
  let bodySize ← subU32 o bufferSize 48
  let cursor := cursor.writeU32 bodySize
  let cursor := cursor.seek 4
  let cursor := cursor.writeU32 (crc32 (cursor.buffer.drop 8))
  return cursor.buffer

def encodeToBinary (o : Overflow) (crc32 : List UInt8 → UInt32) (self : DecodedSignature) :
    Option (List UInt8) := do
  let cursor ← appendAll o self
  patch o crc32 cursor

end SignatureFormat
