import Mathlib
import ShazamioCore.Decode

/-!
# The Opus decoder

The `OpusHead` header and the decoder opened on it, which drops the frames a stream starts
with and those the container trims. `none` is a panic. `libopus` is a parameter: a state,
and a call that decodes a packet to frames or rejects it.
-/
namespace Opus

open Decode

/-- A computation that fails, or panics. -/
abbrev Checked := ExceptT Error Option

def opusSampleRate : UInt32 := 48000

def opusHeadMagic : List UInt8 := [0x4f, 0x70, 0x75, 0x73, 0x48, 0x65, 0x61, 0x64]
def opusHeadMinLength : Nat := 19

def versionOffset : Nat := 8
def channelCountOffset : Nat := 9
def preSkipOffset : Nat := 10
def outputGainOffset : Nat := 16
def mappingFamilyOffset : Nat := 18
def streamCountOffset : Nat := 19
def coupledCountOffset : Nat := 20
def channelMappingOffset : Nat := 21

def maxHeaderVersion : UInt8 := 15

def mappingFamilyRtp : UInt8 := 0
def mappingFamilyVorbis : UInt8 := 1
def mappingFamilyDiscrete : UInt8 := 255

def maxChannelsForFamily (mappingFamily : UInt8) : Nat :=
  if mappingFamily = mappingFamilyRtp then 2
  else if mappingFamily = mappingFamilyVorbis then 8
  else 255

structure StreamLayout where
  streamCount : UInt8
  coupledCount : UInt8
  channelMapping : List UInt8
  deriving DecidableEq

structure OpusHead (α : Type) where
  channelCount : Nat
  preSkip : Nat
  outputGain : α
  streamLayout : StreamLayout
  channelCount_pos : 0 < channelCount

def byteAt (data : List UInt8) (index : Nat) : Checked UInt8 :=
  ExceptT.mk (data[index]?.map .ok)

def slice (data : List UInt8) (start stop : Nat) : Checked (List UInt8) :=
  ExceptT.mk (if start ≤ stop ∧ stop ≤ data.length then
    some (.ok ((data.take stop).drop start)) else none)

def Safe {β : Type} (x : Checked β) : Prop := x.run ≠ none

theorem safe_pure {β : Type} (b : β) : Safe (pure b : Checked β) := by
  rintro ⟨⟩

theorem safe_throw {β : Type} (error : Error) : Safe (throw error : Checked β) := by
  rintro ⟨⟩

theorem safe_bind {β γ : Type} {x : Checked β} {f : β → Checked γ} (hx : Safe x)
    (hf : ∀ b, Safe (f b)) : Safe (x >>= f) := by
  cases hrun : x.run with
  | none => exact absurd hrun hx
  | some result =>
    rw [Safe]
    rw [ExceptT.run_bind, hrun]
    cases result with
    | error error => rintro ⟨⟩
    | ok b => exact hf b

theorem safe_byteAt (data : List UInt8) (index : Nat) (h : index < data.length) :
    Safe (byteAt data index) := by
  rw [Safe, byteAt]
  rw [List.getElem?_eq_getElem h]
  rintro ⟨⟩

theorem safe_slice (data : List UInt8) (start stop : Nat) (h : start ≤ stop)
    (h' : stop ≤ data.length) : Safe (slice data start stop) := by
  rw [Safe, slice]
  rw [if_pos ⟨h, h'⟩]
  rintro ⟨⟩

def parseStreamLayout (data : List UInt8) (channelCount : Nat) : Checked StreamLayout := do
  let mappingFamily ← byteAt data mappingFamilyOffset
  if ¬(mappingFamily = mappingFamilyRtp ∨ mappingFamily = mappingFamilyVorbis ∨
      mappingFamily = mappingFamilyDiscrete) then
    throw (.unsupported "opus: the stream declares a mapping family we cannot read")
  else if maxChannelsForFamily mappingFamily < channelCount then
    throw (.unsupported "opus: the mapping family codes fewer channels than that")
  else if mappingFamily = mappingFamilyRtp then
    return {
      streamCount := 1
      coupledCount := if channelCount = 2 then 1 else 0
      channelMapping := (List.range channelCount).map UInt8.ofNat }
  else if data.length < channelMappingOffset + channelCount then
    throw (.decodeError "opus: the `OpusHead` mapping table is cut short")
  else
    let streamCount ← byteAt data streamCountOffset
    let coupledCount ← byteAt data coupledCountOffset
    let channelMapping ← slice data channelMappingOffset (channelMappingOffset + channelCount)
    return { streamCount, coupledCount, channelMapping }

/-- The bytes of a header of the least length are all there. -/
theorem parseStreamLayout_safe (data : List UInt8) (channelCount : Nat)
    (h : opusHeadMinLength ≤ data.length) : Safe (parseStreamLayout data channelCount) := by
  refine safe_bind (safe_byteAt data _ (Nat.lt_of_lt_of_le (by decide) h)) fun _ => ?_
  split
  · exact safe_throw _
  split
  · exact safe_throw _
  split
  · exact safe_pure _
  split
  · exact safe_throw _
  have htable : channelMappingOffset + channelCount ≤ data.length := by omega
  have hoffset : channelMappingOffset ≤ data.length := by omega
  refine safe_bind (safe_byteAt data _ (Nat.lt_of_lt_of_le (by decide) hoffset)) fun _ => ?_
  refine safe_bind (safe_byteAt data _ (Nat.lt_of_lt_of_le (by decide) hoffset)) fun _ => ?_
  exact safe_bind (safe_slice data _ _ (Nat.le_add_right _ _) htable) fun _ => safe_pure _

variable {α : Type} [LinearOrder α] [F32 α] [Powf α]

def parse (data : List UInt8) : Checked (OpusHead α) := do
  if data.length < opusHeadMinLength ∨ ¬opusHeadMagic <+: data then
    throw (.unsupported "opus: the stream carries no `OpusHead` header")
  else
    let version ← byteAt data versionOffset
    if maxHeaderVersion < version then
      throw (.unsupported "opus: the stream declares an unreadable header version")
    else
      let channelCount ← byteAt data channelCountOffset
      if h : channelCount.toNat = 0 then
        throw (.unsupported "opus: the stream declares an unusable channel count")
      else
        let preSkip ← byteAt data preSkipOffset
        let preSkipHigh ← byteAt data (preSkipOffset + 1)
        let outputGain ← byteAt data outputGainOffset
        let outputGainHigh ← byteAt data (outputGainOffset + 1)
        let streamLayout ← parseStreamLayout data channelCount.toNat
        let outputGainDb := Int16.ofNat (outputGain.toNat + 2 ^ 8 * outputGainHigh.toNat)
        return {
          channelCount := channelCount.toNat
          preSkip := preSkip.toNat + 2 ^ 8 * preSkipHigh.toNat
          outputGain := Powf.powf (F32.lit 10)
            (F32.div (F32.ofInt outputGainDb.toInt) (F32.mul (F32.lit 20) (F32.lit 256)))
          streamLayout
          channelCount_pos := Nat.pos_of_ne_zero h }

/-- Reading a header does not panic, whatever the bytes. -/
theorem parse_safe (data : List UInt8) : Safe (parse data : Checked (OpusHead α)) := by
  rw [parse]
  split
  · exact safe_throw _
  rename_i hheader
  have hlength : opusHeadMinLength ≤ data.length := by omega
  have hbyte : ∀ index < opusHeadMinLength, Safe (byteAt data index) := fun index h =>
    safe_byteAt data index (Nat.lt_of_lt_of_le h hlength)
  refine safe_bind (hbyte _ (by decide)) fun _ => ?_
  split
  · exact safe_throw _
  refine safe_bind (hbyte _ (by decide)) fun _ => ?_
  split
  · exact safe_throw _
  refine safe_bind (hbyte _ (by decide)) fun _ => ?_
  refine safe_bind (hbyte _ (by decide)) fun _ => ?_
  refine safe_bind (hbyte _ (by decide)) fun _ => ?_
  refine safe_bind (hbyte _ (by decide)) fun _ => ?_
  exact safe_bind (parseStreamLayout_safe data _ hlength) fun _ => safe_pure _

/-- `libopus`: a decoder opened on a layout of streams, and the frames a packet holds. -/
structure Libopus (σ α : Type) where
  new : UInt32 → StreamLayout → Option σ
  decodeFloat : (channelCount : Nat) → σ → List UInt8 → σ × Option (List (Vector α channelCount))

structure PacketRef where
  data : List UInt8
  trimStart : Nat
  trimEnd : Nat

structure OpusDecoder (σ α : Type) where
  decoder : σ
  channelCount : Nat
  outputGain : α
  framesToSkip : Nat
  channelCount_pos : 0 < channelCount

def tryNew {σ : Type} (libopus : Libopus σ α) (extraData : Option (List UInt8)) :
    Except Error (OpusDecoder σ α) := do
  let some extraData := extraData |
    throw (.unsupported "opus: the stream carries no `OpusHead` header")
  let head ← (parse extraData).run.get (Option.isSome_iff_ne_none.mpr (parse_safe extraData))
  let some decoder := libopus.new opusSampleRate head.streamLayout |
    throw (.unsupported "opus: libopus refused the stream")
  return {
    decoder
    channelCount := head.channelCount
    outputGain := head.outputGain
    framesToSkip := head.preSkip
    channelCount_pos := head.channelCount_pos }

def discrete (channelCount : Nat) (h : 0 < channelCount) : Channels := ⟨0, channelCount, h⟩

omit [LinearOrder α] [F32 α] [Powf α] in
theorem length_flatten_frames {channelCount : Nat} (frames : List (Vector α channelCount)) :
    (frames.map Vector.toList).flatten.length = frames.length * channelCount := by
  simp [List.length_flatten, Function.comp_def]

/-- The frames to skip and the container's trim are one count, the larger of the two. -/
def decodeRef {σ : Type} (libopus : Libopus σ α) (self : OpusDecoder σ α) (packet : PacketRef) :
    OpusDecoder σ α × Except Error (AudioBuffer α) :=
  match libopus.decodeFloat self.channelCount self.decoder packet.data with
  | (decoder, none) =>
    ({ self with decoder := decoder }, .error (.decodeError "opus: libopus rejected the packet"))
  | (decoder, some decoded) =>
    let decodedFrames := decoded.length
    let gained := decoded.map (Vector.map (F32.mul · self.outputGain))
    let leading := min (max self.framesToSkip packet.trimStart) decodedFrames
    let trailing := min packet.trimEnd (decodedFrames - leading)
    let kept := (gained.drop leading).take (decodedFrames - leading - trailing)
    ({ self with decoder := decoder, framesToSkip := self.framesToSkip - leading },
      .ok {
        spec := ⟨opusSampleRate, discrete self.channelCount self.channelCount_pos⟩
        samples := (kept.map Vector.toList).flatten
        whole_frames := ⟨kept.length, by rw [length_flatten_frames, Nat.mul_comm]; rfl⟩ })

omit [Powf α] in
/-- A packet that lies among the frames to skip decodes to no frame, and without an error. -/
theorem decodeRef_skipped {σ : Type} (libopus : Libopus σ α) (self : OpusDecoder σ α)
    (packet : PacketRef) {decoder : σ} {decoded : List (Vector α self.channelCount)}
    (h : libopus.decodeFloat self.channelCount self.decoder packet.data = (decoder, some decoded))
    (hskip : decoded.length ≤ self.framesToSkip) :
    ∃ audioBuffer, audioBuffer.samples = [] ∧
      audioBuffer.spec = ⟨opusSampleRate, discrete self.channelCount self.channelCount_pos⟩ ∧
      decodeRef libopus self packet =
        ({ self with decoder := decoder, framesToSkip := self.framesToSkip - decoded.length },
          .ok audioBuffer) := by
  have hleading : min (max self.framesToSkip packet.trimStart) decoded.length = decoded.length := by
    omega
  rw [decodeRef]
  rw [h]
  simp only [hleading]
  exact ⟨_, by simp, rfl, rfl⟩

def opusCodecs {σ : Type} (libopus : Libopus σ α) :
    CodecRegistry (Option (List UInt8)) PacketRef (OpusDecoder σ α) α where
  getAudioDecoder _ := true
  makeAudioDecoder := tryNew libopus
  decode := decodeRef libopus

end Opus
