import Mathlib
import ShazamioCore.F32

/-!
# Decoding a stream

A reader hands over packets, asks for a reset when another stream begins, and stops with an
end or an error. The decoder of the selected track turns its packets into interleaved
audio, which is mixed down to mono. The reader and the codecs are parameters: the reader
the events it will yield, a codec a state and a call that may fail.
-/
namespace Decode

inductive ErrorKind where
  | unexpectedEof
  | other (code : Nat)
  deriving DecidableEq, Repr

inductive Error where
  | ioError (kind : ErrorKind)
  | decodeError (message : String)
  | seekError (code : Nat)
  | unsupported (message : String)
  | limitError (message : String)
  | resetRequired
  deriving DecidableEq, Repr

def isUnexpectedEof : Error → Bool
  | .ioError .unexpectedEof => true
  | _ => false

structure Channels where
  layout : Nat
  count : Nat
  pos : 0 < count
  deriving DecidableEq

structure AudioSpec where
  rate : UInt32
  channels : Channels
  deriving DecidableEq

/-- Decoded audio, interleaved: whole frames of one spec. -/
structure AudioBuffer (α : Type) where
  spec : AudioSpec
  samples : List α
  whole_frames : spec.channels.count ∣ samples.length

/-- The parameters of a track's codec; only those of an audio codec matter. -/
inductive CodecParameters (A : Type) where
  | audio (parameters : A)
  | other

def CodecParameters.audio? {A : Type} : CodecParameters A → Option A
  | .audio parameters => some parameters
  | .other => none

structure Track (A : Type) where
  id : UInt32
  codecParams : Option (CodecParameters A)

structure Packet (P : Type) where
  trackId : UInt32
  data : P

/-- What a reader yields. A request for a reset comes with the tracks of what follows. -/
inductive Event (A P : Type) where
  | packet (packet : Packet P)
  | resetRequired (tracks : List (Track A))
  | endOfStream
  | error (error : Error) (h : error ≠ .resetRequired)

/-- A reader: the tracks it has, and all it will yield; once that is spent it is at the end. -/
structure FormatReader (A P : Type) where
  tracks : List (Track A)
  events : List (Event A P)

def FormatReader.nextPacket {A P : Type} (self : FormatReader A P) :
    Except Error (Option (Packet P)) × FormatReader A P :=
  match self.events with
  | [] => (.ok none, self)
  | .packet packet :: events => (.ok (some packet), { self with events := events })
  | .resetRequired tracks :: events => (.error .resetRequired, ⟨tracks, events⟩)
  | .endOfStream :: events => (.ok none, { self with events := events })
  | .error error _ :: events => (.error error, { self with events := events })

/-- The codecs of a build. A decoder keeps a state from packet to packet. -/
structure CodecRegistry (A P δ α : Type) where
  getAudioDecoder : A → Bool
  makeAudioDecoder : A → Except Error δ
  decode : δ → P → δ × Except Error (AudioBuffer α)

structure TrackDecoder (δ : Type) where
  trackId : UInt32
  decoder : δ

structure PacketDecoder (A P δ α : Type) where
  format : FormatReader A P
  trackDecoder : TrackDecoder δ
  interleavedSamples : List α

variable {A P δ α : Type}

def PacketDecoder.setDecoder (self : PacketDecoder A P δ α) (decoder : δ) :
    PacketDecoder A P δ α :=
  { self with trackDecoder := { self.trackDecoder with decoder := decoder } }

/-- The first audio track with a decoder in this build, and that decoder. -/
def decoderFor (codecs : CodecRegistry A P δ α) (tracks : List (Track A)) :
    Except Error (TrackDecoder δ) :=
  let found := tracks.findSome? fun track => do
    let codecParameters ← (← track.codecParams).audio?
    guard (codecs.getAudioDecoder codecParameters)
    return (track.id, codecParameters)
  match found with
  | none =>
    .error (.unsupported "the stream carries no track with a codec this build can decode")
  | some (trackId, codecParameters) =>
    (codecs.makeAudioDecoder codecParameters).map fun decoder => ⟨trackId, decoder⟩

def fromFormat (codecs : CodecRegistry A P δ α) (format : FormatReader A P) :
    Except Error (PacketDecoder A P δ α) :=
  (decoderFor codecs format.tracks).map fun trackDecoder => ⟨format, trackDecoder, []⟩

theorem FormatReader.nextPacket_shrinks {self format : FormatReader A P}
    {result : Except Error (Option (Packet P))} (h : self.nextPacket = (result, format))
    (hresult : result ≠ .ok none) : format.events.length < self.events.length := by
  rw [FormatReader.nextPacket] at h
  split at h
  · exact absurd (congrArg Prod.fst h).symm hresult
  all_goals
    rename_i hevents
    obtain ⟨-, rfl⟩ := Prod.mk.inj h
    rw [hevents]
    exact Nat.lt_succ_self _

/-- The next packet of the reader, a decoder built at every reset on the way. -/
def nextPacket (codecs : CodecRegistry A P δ α) (self : PacketDecoder A P δ α) :
    Except Error (Option (Packet P) × PacketDecoder A P δ α) :=
  match _h : self.format.nextPacket with
  | (.error .resetRequired, format) =>
    match decoderFor codecs format.tracks with
    | .error error => .error error
    | .ok trackDecoder =>
      nextPacket codecs { self with format := format, trackDecoder := trackDecoder }
  | (.error error, format) =>
    if isUnexpectedEof error then .ok (none, { self with format := format }) else .error error
  | (.ok packet, format) => .ok (packet, { self with format := format })
termination_by self.format.events.length
decreasing_by exact FormatReader.nextPacket_shrinks _h (by simp)

/-- An I/O error on the last packet is the end of a stream cut short. -/
def endOfStreamOr (codecs : CodecRegistry A P δ α) (self : PacketDecoder A P δ α) (error : Error) :
    Except Error (Option AudioSpec × PacketDecoder A P δ α) :=
  match error with
  | .ioError kind =>
    match nextPacket codecs self with
    | .error error => .error error
    | .ok (none, self) => .ok (none, self)
    | .ok (some _, _) => .error (.ioError kind)
  | error => .error error

theorem endOfStreamOr_eq_ok {codecs : CodecRegistry A P δ α} {self self' : PacketDecoder A P δ α}
    {error : Error} {spec : Option AudioSpec}
    (h : endOfStreamOr codecs self error = .ok (spec, self')) : spec = none := by
  unfold endOfStreamOr at h
  split at h
  · split at h
    · cases h
    · cases h
      rfl
    · cases h
  · cases h

section Mixdown

variable [LinearOrder α] [F32 α]

def resize (monoFrames : List α) (len : Nat) : List α :=
  monoFrames.take len ++ List.replicate (len - monoFrames.length) (F32.lit 0)

/-- Each sample's share added to its frame. -/
def mixDown (monoFrames interleavedSamples : List α) (channelCount : Nat) : List α :=
  interleavedSamples.zipIdx.foldl (fun monoFrames (sample, index) =>
      monoFrames.modify (index / channelCount) fun frame =>
        F32.add frame (F32.div sample (F32.ofInt channelCount)))
    (resize monoFrames (interleavedSamples.length / channelCount))

end Mixdown

theorem nextPacket_shrinks {codecs : CodecRegistry A P δ α} {self self' : PacketDecoder A P δ α}
    {packet : Packet P} (h : nextPacket codecs self = .ok (some packet, self')) :
    self'.format.events.length < self.format.events.length := by
  rw [nextPacket] at h
  split at h
  · rename_i format hread
    split at h
    · cases h
    · rename_i trackDecoder _
      have hlt := FormatReader.nextPacket_shrinks hread (by simp)
      have hrest := nextPacket_shrinks h
      exact Nat.lt_trans hrest hlt
  · split at h
    · cases h
    · cases h
  · rename_i format hread
    cases h
    exact FormatReader.nextPacket_shrinks hread (by simp)
termination_by self.format.events.length

variable [LinearOrder α] [F32 α]

/-- The loop of `next` over a cleared `mono_frames`: the packets of other tracks are passed
over. -/
def nextFrames (codecs : CodecRegistry A P δ α) (self : PacketDecoder A P δ α)
    (monoFrames : List α) :
    Except Error (Option AudioSpec × PacketDecoder A P δ α × List α) :=
  match _h : nextPacket codecs self with
  | .error error => .error error
  | .ok (none, self) => .ok (none, self, monoFrames)
  | .ok (some packet, self) =>
    if packet.trackId ≠ self.trackDecoder.trackId then nextFrames codecs self monoFrames
    else
      match codecs.decode self.trackDecoder.decoder packet.data with
      | (decoder, .error error) =>
        (endOfStreamOr codecs (self.setDecoder decoder) error).map fun (spec, self) =>
          (spec, self, monoFrames)
      | (decoder, .ok audioBuffer) =>
        .ok (some audioBuffer.spec,
          { self.setDecoder decoder with interleavedSamples := audioBuffer.samples },
          mixDown monoFrames audioBuffer.samples audioBuffer.spec.channels.count)
termination_by self.format.events.length
decreasing_by exact nextPacket_shrinks _h

def next (codecs : CodecRegistry A P δ α) (self : PacketDecoder A P δ α) (_monoFrames : List α) :
    Except Error (Option AudioSpec × PacketDecoder A P δ α × List α) :=
  nextFrames codecs self []

theorem nextFrames_shrinks {codecs : CodecRegistry A P δ α} {self self' : PacketDecoder A P δ α}
    {monoFrames monoFrames' : List α} {spec : AudioSpec}
    (h : nextFrames codecs self monoFrames = .ok (some spec, self', monoFrames')) :
    self'.format.events.length < self.format.events.length := by
  rw [nextFrames] at h
  split at h
  · cases h
  · cases h
  · rename_i packet self₁ hpacket
    have hlt := nextPacket_shrinks hpacket
    split at h
    · exact Nat.lt_trans (nextFrames_shrinks h) hlt
    · split at h
      · rename_i decoder error _
        cases hend : endOfStreamOr codecs (self₁.setDecoder decoder) error with
        | error e =>
          rw [hend] at h
          cases h
        | ok result =>
          obtain ⟨spec', self₂⟩ := result
          obtain rfl := endOfStreamOr_eq_ok hend
          rw [hend] at h
          cases h
      · cases h
        exact hlt
termination_by self.format.events.length

/-- `next` called until the stream ends or fails: every chunk it hands out with its spec,
and the error it fails with. -/
def decodeAll (codecs : CodecRegistry A P δ α) (self : PacketDecoder A P δ α)
    (monoFrames : List α) : List (AudioSpec × List α) × Option Error :=
  match _h : next codecs self monoFrames with
  | .error error => ([], some error)
  | .ok (none, _, _) => ([], none)
  | .ok (some spec, self, monoFrames) =>
    let (chunks, failure) := decodeAll codecs self monoFrames
    ((spec, monoFrames) :: chunks, failure)
termination_by self.format.events.length
decreasing_by exact nextFrames_shrinks _h

structure MonoDecoder (A P δ α : Type) where
  packets : PacketDecoder A P δ α
  spec : AudioSpec
  firstChunk : Option (List α)

def probeError : Error → Error
  | .unsupported _ => .unsupported "no reader in this build recognises the stream"
  | other => other

/-- `MonoDecoder::new`, given what the probe makes of the source. -/
def MonoDecoder.new (codecs : CodecRegistry A P δ α) (probed : Except Error (FormatReader A P)) :
    Except Error (MonoDecoder A P δ α) := do
  let packets ← fromFormat codecs (← probed.mapError probeError)
  match ← next codecs packets [] with
  | (none, _, _) => .error (.decodeError "the stream carries no decodable audio")
  | (some spec, packets, firstChunk) => return ⟨packets, spec, some firstChunk⟩

/-- The next packet of the stream, the one read already before all others. -/
def MonoDecoder.nextChunk (codecs : CodecRegistry A P δ α) (self : MonoDecoder A P δ α)
    (monoFrames : List α) : Except Error (Bool × MonoDecoder A P δ α × List α) :=
  match self.firstChunk with
  | some firstChunk => .ok (true, { self with firstChunk := none }, firstChunk)
  | none => do
    match ← next codecs self.packets monoFrames with
    | (none, packets, monoFrames) => return (false, { self with packets := packets }, monoFrames)
    | (some spec, packets, monoFrames) =>
      if spec ≠ self.spec then
        .error (.unsupported "the stream changes format part-way through")
      else return (true, { self with packets := packets }, monoFrames)

end Decode
