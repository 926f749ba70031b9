import Mathlib
import ShazamioCore.Decode
import ShazamioCore.LoopRules

/-!
# The script of a stream

What a stream holds, told without the reader's loops: every packet the reader hands over,
as passed over, decoded or failed, the decoder going on after a failure, and how the
reading stops. What a packet decodes to is told frame by frame, without the loop over its
samples. The decoder is a judge of that script: it takes what decodes, and lets a failure
pass only as the last packet of all and for an I/O error.
-/
namespace DecodeScript

open Decode

variable {A P δ α : Type} [LinearOrder α] [F32 α]

inductive Item (α : Type) where
  | skipped
  | decoded (chunk : AudioSpec × List α)
  | failed (error : Error)

/-- How the reading stops: at an end, which a stream cut short has too, or refused. -/
inductive Stop where
  | ended
  | refused (error : Error)
  deriving DecidableEq

/-- A frame in mono: the share of each of its channels, added in turn. -/
def monoFrame (channelCount : Nat) (frame : List α) : α :=
  frame.foldl (fun mono sample => F32.add mono (F32.div sample (F32.ofInt channelCount)))
    (F32.lit 0)

/-- The audio of a packet: every frame it decodes to, each in mono. -/
def chunkOf (audioBuffer : AudioBuffer α) : AudioSpec × List α :=
  let channelCount := audioBuffer.spec.channels.count
  (audioBuffer.spec, (LoopRules.rows channelCount audioBuffer.samples).map (monoFrame channelCount))

/-- The loop over the samples leaves every frame in mono. -/
theorem mixDown_eq_chunkOf (audioBuffer : AudioBuffer α) :
    mixDown [] audioBuffer.samples audioBuffer.spec.channels.count = (chunkOf audioBuffer).2 := by
  have hfold := LoopRules.foldl_modify_rows
    (fun (sample mono : α) =>
      F32.add mono (F32.div sample (F32.ofInt audioBuffer.spec.channels.count)))
    audioBuffer.spec.channels.count audioBuffer.spec.channels.pos (F32.lit 0)
    (LoopRules.rows audioBuffer.spec.channels.count audioBuffer.samples)
    fun _ => LoopRules.length_of_mem_rows
  have hcount : (LoopRules.rows audioBuffer.spec.channels.count audioBuffer.samples).length =
      audioBuffer.samples.length / audioBuffer.spec.channels.count := by
    simp [LoopRules.rows]
  rw [LoopRules.flatten_rows audioBuffer.whole_frames, hcount] at hfold
  rw [mixDown, resize, List.take_nil, List.nil_append, List.length_nil, Nat.sub_zero]
  exact hfold

def itemOf : Except Error (AudioBuffer α) → Item α
  | .error error => .failed error
  | .ok audioBuffer => .decoded (chunkOf audioBuffer)

def script (codecs : CodecRegistry A P δ α) :
    TrackDecoder δ → List (Event A P) → List (Item α) × Stop
  | _, [] => ([], .ended)
  | _, .endOfStream :: _ => ([], .ended)
  | _, .error error _ :: _ => ([], if isUnexpectedEof error then .ended else .refused error)
  | _, .resetRequired tracks :: events =>
    match decoderFor codecs tracks with
    | .error error => ([], .refused error)
    | .ok trackDecoder => script codecs trackDecoder events
  | trackDecoder, .packet packet :: events =>
    if packet.trackId ≠ trackDecoder.trackId then
      let (items, stop) := script codecs trackDecoder events
      (.skipped :: items, stop)
    else
      let (decoder, result) := codecs.decode trackDecoder.decoder packet.data
      let (items, stop) := script codecs { trackDecoder with decoder := decoder } events
      (itemOf result :: items, stop)

def Stop.failure : Stop → Option Error
  | .ended => none
  | .refused error => some error

/-- The chunks handed out and the error met, if any. -/
def judge : List (Item α) → Stop → List (AudioSpec × List α) × Option Error
  | [], stop => ([], stop.failure)
  | .skipped :: items, stop => judge items stop
  | .decoded chunk :: items, stop =>
    let (chunks, failure) := judge items stop
    (chunk :: chunks, failure)
  | [.failed (.ioError _)], stop => ([], stop.failure)
  | .failed error :: _, _ => ([], some error)

omit [LinearOrder α] [F32 α] in
/-- A failure lets nothing follow. -/
theorem judge_failed_of_ne_nil (error : Error) (items : List (Item α)) (stop : Stop)
    (h : items ≠ []) : judge (.failed error :: items) stop = ([], some error) := by
  cases items with
  | nil => exact absurd rfl h
  | cons item items => simp [judge]

omit [LinearOrder α] [F32 α] in
theorem judge_failed_of_not_io (error : Error) (items : List (Item α)) (stop : Stop)
    (h : ¬∃ kind, error = .ioError kind) :
    judge (.failed error :: items) stop = ([], some error) := by
  cases error with
  | ioError kind => exact absurd ⟨kind, rfl⟩ h
  | decodeError message => rfl
  | seekError code => rfl
  | unsupported message => rfl
  | limitError message => rfl
  | resetRequired => rfl

def Item.chunk? : Item α → Option (AudioSpec × List α)
  | .decoded chunk => some chunk
  | _ => none

def chunksOf (items : List (Item α)) : List (AudioSpec × List α) := items.filterMap Item.chunk?

omit [LinearOrder α] [F32 α] in
theorem chunksOf_cons (item : Item α) (items : List (Item α)) :
    chunksOf (item :: items) = item.chunk?.toList ++ chunksOf items := by
  cases item with
  | skipped => rfl
  | decoded chunk => rfl
  | failed error => rfl

section Script

variable (codecs : CodecRegistry A P δ α) (events : List (Event A P))
  {trackDecoder : TrackDecoder δ}

theorem script_skipped {packet : Packet P} (h : packet.trackId ≠ trackDecoder.trackId) :
    script codecs trackDecoder (.packet packet :: events) =
      (.skipped :: (script codecs trackDecoder events).1,
        (script codecs trackDecoder events).2) := by
  rw [script, if_pos h]

theorem script_packet {packet : Packet P} (h : packet.trackId = trackDecoder.trackId)
    {decoder : δ} {result : Except Error (AudioBuffer α)}
    (hdecode : codecs.decode trackDecoder.decoder packet.data = (decoder, result)) :
    script codecs trackDecoder (.packet packet :: events) =
      (itemOf result :: (script codecs { trackDecoder with decoder := decoder } events).1,
        (script codecs { trackDecoder with decoder := decoder } events).2) := by
  rw [script, if_neg (not_not.mpr h), hdecode]

theorem script_resetRequired {tracks : List (Track A)} {trackDecoder' : TrackDecoder δ}
    (h : decoderFor codecs tracks = .ok trackDecoder') :
    script codecs trackDecoder (.resetRequired tracks :: events) =
      script codecs trackDecoder' events := by
  rw [script, h]

end Script

section Reader

variable (codecs : CodecRegistry A P δ α) (tracks : List (Track A)) (events : List (Event A P))
  (trackDecoder : TrackDecoder δ) (samples : List α)

omit [LinearOrder α] [F32 α]

theorem nextPacket_nil : nextPacket codecs ⟨⟨tracks, []⟩, trackDecoder, samples⟩ =
    .ok (none, ⟨⟨tracks, []⟩, trackDecoder, samples⟩) := by
  rw [nextPacket]
  rfl

theorem nextPacket_endOfStream :
    nextPacket codecs ⟨⟨tracks, .endOfStream :: events⟩, trackDecoder, samples⟩ =
      .ok (none, ⟨⟨tracks, events⟩, trackDecoder, samples⟩) := by
  rw [nextPacket]
  rfl

theorem nextPacket_packet (packet : Packet P) :
    nextPacket codecs ⟨⟨tracks, .packet packet :: events⟩, trackDecoder, samples⟩ =
      .ok (some packet, ⟨⟨tracks, events⟩, trackDecoder, samples⟩) := by
  rw [nextPacket]
  rfl

theorem nextPacket_error (error : Error) (h : error ≠ .resetRequired) :
    nextPacket codecs ⟨⟨tracks, .error error h :: events⟩, trackDecoder, samples⟩ =
      if isUnexpectedEof error then .ok (none, ⟨⟨tracks, events⟩, trackDecoder, samples⟩)
      else .error error := by
  rw [nextPacket]
  cases error with
  | resetRequired => exact absurd rfl h
  | ioError kind => cases kind <;> rfl
  | decodeError message => rfl
  | seekError code => rfl
  | unsupported message => rfl
  | limitError message => rfl

theorem nextPacket_resetRequired (tracks' : List (Track A)) :
    nextPacket codecs ⟨⟨tracks, .resetRequired tracks' :: events⟩, trackDecoder, samples⟩ =
      match decoderFor codecs tracks' with
      | .error error => .error error
      | .ok trackDecoder => nextPacket codecs ⟨⟨tracks', events⟩, trackDecoder, samples⟩ := by
  rw [nextPacket]
  rfl

/-- The reader is at its end where the script holds no item and is not refused. -/
theorem nextPacket_script [LinearOrder α] [F32 α] :
    match script codecs trackDecoder events with
    | ([], .ended) => ∃ self,
        nextPacket codecs ⟨⟨tracks, events⟩, trackDecoder, samples⟩ = .ok (none, self)
    | ([], .refused error) =>
        nextPacket codecs ⟨⟨tracks, events⟩, trackDecoder, samples⟩ = .error error
    | (_ :: _, _) => ∃ packet self,
        nextPacket codecs ⟨⟨tracks, events⟩, trackDecoder, samples⟩ = .ok (some packet, self) := by
  induction events generalizing tracks trackDecoder with
  | nil => exact ⟨_, nextPacket_nil codecs tracks trackDecoder samples⟩
  | cons event events ih =>
    cases event with
    | packet packet =>
      rw [nextPacket_packet, script]
      by_cases htrack : packet.trackId ≠ trackDecoder.trackId
      · rw [if_pos htrack]
        exact ⟨_, _, rfl⟩
      · rw [if_neg htrack]
        exact ⟨_, _, rfl⟩
    | resetRequired tracks' =>
      rw [nextPacket_resetRequired, script]
      cases decoderFor codecs tracks' with
      | error error => rfl
      | ok trackDecoder => exact ih tracks' trackDecoder
    | endOfStream => exact ⟨_, nextPacket_endOfStream codecs tracks events trackDecoder samples⟩
    | error error h =>
      rw [nextPacket_error, script]
      cases isUnexpectedEof error with
      | true => exact ⟨_, rfl⟩
      | false => rfl

end Reader

section Run

variable (codecs : CodecRegistry A P δ α) {self self' : PacketDecoder A P δ α}
  (monoFrames : List α)

theorem nextFrames_eq : nextFrames codecs self monoFrames =
    match nextPacket codecs self with
    | .error error => .error error
    | .ok (none, self) => .ok (none, self, monoFrames)
    | .ok (some packet, self) =>
      if packet.trackId ≠ self.trackDecoder.trackId then nextFrames codecs self monoFrames
      else
        match codecs.decode self.trackDecoder.decoder packet.data with
        | (decoder, .error error) =>
          (endOfStreamOr codecs (self.setDecoder decoder) error).map fun (spec, self) =>
            (spec, self, monoFrames)
        | (decoder, .ok audioBuffer) =>
          .ok (some audioBuffer.spec,
            { self.setDecoder decoder with interleavedSamples := audioBuffer.samples },
            mixDown monoFrames audioBuffer.samples audioBuffer.spec.channels.count) := by
  rw [nextFrames]
  split <;> rename_i h <;> exact h ▸ rfl

theorem decodeAll_eq : decodeAll codecs self monoFrames =
    match nextFrames codecs self [] with
    | .error error => ([], some error)
    | .ok (none, _, _) => ([], none)
    | .ok (some spec, self, monoFrames) =>
      ((spec, monoFrames) :: (decodeAll codecs self monoFrames).1,
        (decodeAll codecs self monoFrames).2) := by
  rw [decodeAll]
  split <;> rename_i h <;> simp only [next] at h <;> simp only [h]

section Steps

variable {codecs} {monoFrames}

theorem nextFrames_congr (h : nextPacket codecs self = nextPacket codecs self') :
    nextFrames codecs self monoFrames = nextFrames codecs self' monoFrames := by
  rw [nextFrames_eq, h, ← nextFrames_eq]

theorem decodeAll_congr (h : nextFrames codecs self [] = nextFrames codecs self' []) :
    decodeAll codecs self monoFrames = decodeAll codecs self' monoFrames := by
  rw [decodeAll_eq, h, ← decodeAll_eq]

theorem nextFrames_skipped {packet : Packet P}
    (h : nextPacket codecs self = .ok (some packet, self'))
    (htrack : packet.trackId ≠ self'.trackDecoder.trackId) :
    nextFrames codecs self monoFrames = nextFrames codecs self' monoFrames := by
  rw [nextFrames_eq, h]
  exact if_pos htrack

theorem nextFrames_failed {packet : Packet P}
    (h : nextPacket codecs self = .ok (some packet, self'))
    (htrack : packet.trackId = self'.trackDecoder.trackId) {decoder : δ} {error : Error}
    (hdecode : codecs.decode self'.trackDecoder.decoder packet.data = (decoder, .error error)) :
    nextFrames codecs self monoFrames =
      (endOfStreamOr codecs (self'.setDecoder decoder) error).map fun (_, self) =>
        (none, self, monoFrames) := by
  rw [nextFrames_eq, h]
  simp only [if_neg (not_not.mpr htrack), hdecode]
  cases hend : endOfStreamOr codecs (self'.setDecoder decoder) error with
  | error error' => rfl
  | ok result =>
    obtain ⟨spec, self''⟩ := result
    obtain rfl := endOfStreamOr_eq_ok hend
    rfl

theorem nextFrames_decoded {packet : Packet P}
    (h : nextPacket codecs self = .ok (some packet, self'))
    (htrack : packet.trackId = self'.trackDecoder.trackId) {decoder : δ}
    {audioBuffer : AudioBuffer α}
    (hdecode : codecs.decode self'.trackDecoder.decoder packet.data = (decoder, .ok audioBuffer)) :
    nextFrames codecs self monoFrames =
      .ok (some audioBuffer.spec,
        { self'.setDecoder decoder with interleavedSamples := audioBuffer.samples },
        mixDown monoFrames audioBuffer.samples audioBuffer.spec.channels.count) := by
  rw [nextFrames_eq, h]
  simp only [if_neg (not_not.mpr htrack), hdecode]

theorem decodeAll_ended (h : nextPacket codecs self = .ok (none, self')) :
    decodeAll codecs self monoFrames = ([], none) := by
  rw [decodeAll_eq, nextFrames_eq, h]

theorem decodeAll_refused {error : Error} (h : nextPacket codecs self = .error error) :
    decodeAll codecs self monoFrames = ([], some error) := by
  rw [decodeAll_eq, nextFrames_eq, h]

theorem decodeAll_failed {packet : Packet P}
    (h : nextPacket codecs self = .ok (some packet, self'))
    (htrack : packet.trackId = self'.trackDecoder.trackId) {decoder : δ} {error : Error}
    (hdecode : codecs.decode self'.trackDecoder.decoder packet.data = (decoder, .error error)) :
    decodeAll codecs self monoFrames =
      ([], match endOfStreamOr codecs (self'.setDecoder decoder) error with
        | .error error => some error
        | .ok _ => none) := by
  rw [decodeAll_eq, nextFrames_failed h htrack hdecode]
  cases endOfStreamOr codecs (self'.setDecoder decoder) error with
  | error error' => rfl
  | ok result => rfl

theorem decodeAll_decoded {packet : Packet P}
    (h : nextPacket codecs self = .ok (some packet, self'))
    (htrack : packet.trackId = self'.trackDecoder.trackId) {decoder : δ}
    {audioBuffer : AudioBuffer α}
    (hdecode : codecs.decode self'.trackDecoder.decoder packet.data = (decoder, .ok audioBuffer)) :
    decodeAll codecs self monoFrames =
      let rest := decodeAll codecs
        { self'.setDecoder decoder with interleavedSamples := audioBuffer.samples }
        (chunkOf audioBuffer).2
      (chunkOf audioBuffer :: rest.1, rest.2) := by
  rw [decodeAll_eq, nextFrames_decoded h htrack hdecode, mixDown_eq_chunkOf]
  rfl

end Steps

/-- What follows a failed packet, told by what is left of the script. -/
theorem judge_failed (tracks : List (Track A)) (events : List (Event A P))
    (trackDecoder : TrackDecoder δ) (samples : List α) (error : Error) :
    judge (.failed error :: (script codecs trackDecoder events).1)
        (script codecs trackDecoder events).2 =
      ([], match endOfStreamOr codecs ⟨⟨tracks, events⟩, trackDecoder, samples⟩ error with
        | .error error => some error
        | .ok _ => none) := by
  cases error with
  | ioError kind =>
    have hread := nextPacket_script codecs tracks events trackDecoder samples
    rw [endOfStreamOr]
    split at hread
    · rename_i hscript
      obtain ⟨self, hread⟩ := hread
      rw [hread, hscript]
      rfl
    · rename_i hscript
      rw [hread, hscript]
      rfl
    · rename_i hscript
      obtain ⟨packet, self, hread⟩ := hread
      rw [hread, hscript]
      rfl
  | decodeError message => rfl
  | seekError code => rfl
  | unsupported message => rfl
  | limitError message => rfl
  | resetRequired => rfl

/-- The decoder judges the script of what it reads. -/
theorem decodeAll_script (tracks : List (Track A)) (events : List (Event A P))
    (trackDecoder : TrackDecoder δ) (samples : List α) :
    decodeAll codecs ⟨⟨tracks, events⟩, trackDecoder, samples⟩ monoFrames =
      judge (script codecs trackDecoder events).1 (script codecs trackDecoder events).2 := by
  induction events generalizing tracks trackDecoder samples monoFrames with
  | nil => exact decodeAll_ended (nextPacket_nil codecs tracks trackDecoder samples)
  | cons event events ih =>
    cases event with
    | packet packet =>
      have hread := nextPacket_packet codecs tracks events trackDecoder samples packet
      by_cases htrack : packet.trackId = trackDecoder.trackId
      · cases hdecode : codecs.decode trackDecoder.decoder packet.data with
        | mk decoder result =>
          rw [script_packet codecs events htrack hdecode]
          cases result with
          | error error =>
            rw [decodeAll_failed hread htrack hdecode]
            exact (judge_failed codecs tracks events _ samples error).symm
          | ok audioBuffer =>
            rw [decodeAll_decoded hread htrack hdecode, PacketDecoder.setDecoder]
            simp only [ih]
            rfl
      · rw [script_skipped codecs events htrack,
          decodeAll_congr (nextFrames_skipped hread htrack), ih]
        rfl
    | resetRequired tracks' =>
      have hread := nextPacket_resetRequired codecs tracks events trackDecoder samples tracks'
      cases hbuilt : decoderFor codecs tracks' with
      | error error =>
        rw [hbuilt] at hread
        rw [decodeAll_refused hread, script, hbuilt]
        rfl
      | ok trackDecoder' =>
        rw [hbuilt] at hread
        rw [decodeAll_congr (nextFrames_congr hread), ih, script_resetRequired codecs events hbuilt]
    | endOfStream => exact decodeAll_ended (nextPacket_endOfStream codecs tracks events _ samples)
    | error error h =>
      have hread := nextPacket_error codecs tracks events trackDecoder samples error h
      rw [script]
      cases heof : isUnexpectedEof error with
      | true =>
        rw [heof] at hread
        exact decodeAll_ended hread
      | false =>
        rw [heof] at hread
        exact decodeAll_refused hread

end Run

def monoSpec (rate : UInt32) : AudioSpec := ⟨rate, ⟨4, 1, by decide⟩⟩

/-- A build with one codec, of mono samples: a packet names their rate, or is cut short. -/
def plainCodecs : CodecRegistry Unit (Option (UInt32 × List ℝ)) Unit ℝ where
  getAudioDecoder _ := true
  makeAudioDecoder _ := .ok ()
  decode _ packet :=
    ((), match packet with
      | none => .error (.ioError .unexpectedEof)
      | some (rate, samples) => .ok ⟨monoSpec rate, samples, one_dvd _⟩)

/-- In mono a buffer is its frames. -/
theorem chunkOf_mono (rate : UInt32) (samples : List ℝ) (h : 1 ∣ samples.length) :
    chunkOf ⟨monoSpec rate, samples, h⟩ = (monoSpec rate, samples) := by
  have hrows : LoopRules.rows 1 samples = samples.map fun x => [x] := by
    have hflatten : (samples.map fun x => [x]).flatten = samples := by
      rw [← List.flatMap_def, List.flatMap_singleton']
    rw [← LoopRules.rows_flatten Nat.one_pos (samples.map fun x => [x]) (by simp), hflatten]
  have hmono : ∀ x : ℝ, monoFrame 1 [x] = x := by
    intro x
    norm_num [monoFrame, F32.add, F32.div, F32.lit, F32.ofInt]
  refine Prod.ext rfl ?_
  change (LoopRules.rows 1 samples).map (monoFrame 1) = samples
  rw [hrows, List.map_map]
  exact List.map_id'' hmono samples

end DecodeScript
