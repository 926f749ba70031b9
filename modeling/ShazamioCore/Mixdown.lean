import Mathlib
import ShazamioCore.LoopRules
import ShazamioCore.DecodeScript

/-!
# Mixing down to mono

A decoder keeps two buffers from packet to packet. Whatever they held before, a call leaves
one mono frame for each frame of the packet it decoded, the mean over that packet's
channels: the loop's flat index, divided by the number of channels, is the frame.
-/
namespace Mixdown

open Decode DecodeScript

section Frames

variable {α : Type} (audioBuffer : AudioBuffer α)

def frames : Nat := audioBuffer.samples.length / audioBuffer.spec.channels.count

theorem frames_mul_count :
    frames audioBuffer * audioBuffer.spec.channels.count = audioBuffer.samples.length :=
  Nat.div_mul_cancel audioBuffer.whole_frames

theorem place_lt (frame : Fin (frames audioBuffer))
    (channel : Fin audioBuffer.spec.channels.count) :
    frame * audioBuffer.spec.channels.count + channel < audioBuffer.samples.length := by
  have hframe : (frame + 1) * audioBuffer.spec.channels.count ≤ audioBuffer.samples.length := by
    rw [← frames_mul_count]
    exact Nat.mul_le_mul_right _ frame.isLt
  have hchannel := channel.isLt
  rw [Nat.succ_mul] at hframe
  omega

def sample (frame : Fin (frames audioBuffer)) (channel : Fin audioBuffer.spec.channels.count) :
    α :=
  audioBuffer.samples.get ⟨_, place_lt audioBuffer frame channel⟩

theorem sample_eq_get (frame : Fin (frames audioBuffer))
    (channel : Fin audioBuffer.spec.channels.count) :
    sample audioBuffer frame channel = audioBuffer.samples.get
      (Fin.cast (frames_mul_count audioBuffer) (finProdFinEquiv (frame, channel))) := by
  apply congrArg audioBuffer.samples.get
  apply Fin.ext
  rw [Fin.val_cast, finProdFinEquiv_apply_val, Nat.mul_comm _ (frame : Nat)]
  exact Nat.add_comm _ _

end Frames

def share {α : Type} [LinearOrder α] [F32 α] (channelCount : Nat) (sample frame : α) : α :=
  F32.add frame (F32.div sample (F32.ofInt channelCount))

/-- `mixDown` with its writes checked: `none` is an index with no mono frame. -/
def mixDownChecked {α : Type} [LinearOrder α] [F32 α] (monoFrames interleavedSamples : List α)
    (channelCount : Nat) : Option (List α) :=
  interleavedSamples.zipIdx.foldlM (fun monoFrames (sample, index) =>
      LoopRules.modifyAt monoFrames (index / channelCount) (share channelCount sample))
    (resize monoFrames (interleavedSamples.length / channelCount))

theorem length_resize {α : Type} [LinearOrder α] [F32 α] (monoFrames : List α) (len : Nat) :
    (resize monoFrames len).length = len := by
  rw [resize, List.length_append, List.length_take, List.length_replicate]
  omega

/-- Of whole frames, every sample has its mono frame. -/
theorem mixDownChecked_eq {α : Type} [LinearOrder α] [F32 α] (monoFrames : List α)
    (audioBuffer : AudioBuffer α) :
    mixDownChecked monoFrames audioBuffer.samples audioBuffer.spec.channels.count =
      some (mixDown monoFrames audioBuffer.samples audioBuffer.spec.channels.count) := by
  apply LoopRules.foldlM_modifyAt (· / audioBuffer.spec.channels.count)
    (share audioBuffer.spec.channels.count)
  intro entry hentry
  have hindex : entry.2 < audioBuffer.samples.length := by
    obtain ⟨-, hlt, -⟩ := List.mem_zipIdx hentry
    omega
  rw [length_resize]
  apply Nat.div_lt_of_lt_mul
  rwa [Nat.mul_comm, Nat.div_mul_cancel audioBuffer.whole_frames]

section Run

variable {A P δ α : Type} [LinearOrder α] [F32 α]

/-- What the packets of the selected track decode to, up to the first that does not decode or
the end of the reading. A packet of another track is passed over, and at a reset the decoder
and the track are selected anew. -/
def decodedBuffers (codecs : CodecRegistry A P δ α) :
    TrackDecoder δ → List (Event A P) → List (AudioBuffer α)
  | trackDecoder, .packet packet :: events =>
    if packet.trackId ≠ trackDecoder.trackId then decodedBuffers codecs trackDecoder events
    else
      match codecs.decode trackDecoder.decoder packet.data with
      | (decoder, .ok audioBuffer) =>
        audioBuffer :: decodedBuffers codecs { trackDecoder with decoder := decoder } events
      | (_, .error _) => []
  | _, .resetRequired tracks :: events =>
    match decoderFor codecs tracks with
    | .ok trackDecoder => decodedBuffers codecs trackDecoder events
    | .error _ => []
  | _, _ => []

section Took

variable {codecs : CodecRegistry A P δ α} {self self₁ self' : PacketDecoder A P δ α}
  {monoFrames monoFrames' : List α} {spec : AudioSpec}

theorem nextFrames_read
    (h : nextFrames codecs self monoFrames = .ok (some spec, self', monoFrames')) :
    ∃ packet self₁, nextPacket codecs self = .ok (some packet, self₁) := by
  rw [nextFrames_eq] at h
  split at h
  · cases h
  · cases h
  · rename_i packet self₁ hread
    exact ⟨packet, self₁, hread⟩

/-- A packet of the selected track that is handed out was decoded and mixed down. -/
theorem nextFrames_own {packet : Packet P}
    (hread : nextPacket codecs self = .ok (some packet, self₁))
    (htrack : packet.trackId = self₁.trackDecoder.trackId)
    (h : nextFrames codecs self monoFrames = .ok (some spec, self', monoFrames')) :
    ∃ decoder audioBuffer,
      codecs.decode self₁.trackDecoder.decoder packet.data = (decoder, .ok audioBuffer) ∧
      spec = audioBuffer.spec ∧
      self' = { self₁.setDecoder decoder with interleavedSamples := audioBuffer.samples } ∧
      monoFrames' = mixDown monoFrames audioBuffer.samples audioBuffer.spec.channels.count := by
  cases hdecode : codecs.decode self₁.trackDecoder.decoder packet.data with
  | mk decoder result =>
    cases result with
    | ok audioBuffer =>
      rw [nextFrames_decoded hread htrack hdecode] at h
      cases h
      exact ⟨decoder, audioBuffer, rfl, rfl, rfl, rfl⟩
    | error error =>
      rw [nextFrames_failed hread htrack hdecode] at h
      cases hend : endOfStreamOr codecs (self₁.setDecoder decoder) error with
      | error error' =>
        rw [hend] at h
        cases h
      | ok result =>
        rw [hend] at h
        cases h

end Took

/-- A call that succeeds took the next of these buffers and no other. -/
theorem nextFrames_took (codecs : CodecRegistry A P δ α) (tracks : List (Track A))
    (events : List (Event A P)) (trackDecoder : TrackDecoder δ) (samples : List α)
    {self' : PacketDecoder A P δ α} {monoFrames monoFrames' : List α} {spec : AudioSpec}
    (h : nextFrames codecs ⟨⟨tracks, events⟩, trackDecoder, samples⟩ monoFrames =
      .ok (some spec, self', monoFrames')) :
    ∃ audioBuffer,
      decodedBuffers codecs trackDecoder events =
        audioBuffer :: decodedBuffers codecs self'.trackDecoder self'.format.events ∧
      spec = audioBuffer.spec ∧
      monoFrames' = mixDown monoFrames audioBuffer.samples audioBuffer.spec.channels.count := by
  induction events generalizing tracks trackDecoder with
  | nil =>
    obtain ⟨_, _, hread⟩ := nextFrames_read h
    rw [nextPacket_nil] at hread
    cases hread
  | cons event events ih =>
    cases event with
    | packet packet =>
      have hread := nextPacket_packet codecs tracks events trackDecoder samples packet
      rw [decodedBuffers]
      by_cases htrack : packet.trackId = trackDecoder.trackId
      · obtain ⟨decoder, audioBuffer, hdecode, hspec, rfl, hframes⟩ :=
          nextFrames_own hread htrack h
        rw [if_neg (not_not.mpr htrack), hdecode]
        exact ⟨audioBuffer, rfl, hspec, hframes⟩
      · rw [nextFrames_skipped hread htrack] at h
        rw [if_pos htrack]
        exact ih tracks trackDecoder h
    | resetRequired tracks' =>
      have hread := nextPacket_resetRequired codecs tracks events trackDecoder samples tracks'
      rw [decodedBuffers]
      cases hbuilt : decoderFor codecs tracks' with
      | error error =>
        obtain ⟨_, _, hpacket⟩ := nextFrames_read h
        rw [hread, hbuilt] at hpacket
        cases hpacket
      | ok trackDecoder' =>
        rw [hbuilt] at hread
        rw [nextFrames_congr hread] at h
        exact ih tracks' trackDecoder' h
    | endOfStream =>
      obtain ⟨_, _, hread⟩ := nextFrames_read h
      rw [nextPacket_endOfStream] at hread
      cases hread
    | error error herror =>
      obtain ⟨_, _, hread⟩ := nextFrames_read h
      rw [nextPacket_error] at hread
      split at hread
      · cases hread
      · cases hread

/-- Calls that each hand out a packet, with what they hand out. Before each of them the buffers
may hold anything. -/
inductive Calls (codecs : CodecRegistry A P δ α) :
    PacketDecoder A P δ α → List (AudioSpec × List α) → PacketDecoder A P δ α → Prop
  | done (self : PacketDecoder A P δ α) : Calls codecs self [] self
  | call {self self' self'' : PacketDecoder A P δ α} {spec : AudioSpec}
      {monoFrames' : List α} {chunks : List (AudioSpec × List α)}
      (interleavedSamples monoFrames : List α)
      (hnext : next codecs { self with interleavedSamples := interleavedSamples } monoFrames =
        .ok (some spec, self', monoFrames'))
      (hrest : Calls codecs self' chunks self'') :
      Calls codecs self ((spec, monoFrames') :: chunks) self''

end Run

section Mean

variable {K : Type} [Field K] [LinearOrder K] [IsStrictOrderedRing K] [FloorRing K] [Ln K]

def channelMeans (audioBuffer : AudioBuffer K) : List K :=
  List.ofFn fun frame : Fin (frames audioBuffer) =>
    ∑ channel, sample audioBuffer frame channel / audioBuffer.spec.channels.count

theorem resize_nil (len : Nat) : resize ([] : List K) len = List.replicate len 0 := by
  have hzero : (F32.lit 0 : K) = 0 := Rat.cast_zero
  simp [resize, hzero]

/-- A cleared buffer is left with the means. -/
theorem mixDown_eq_channelMeans (audioBuffer : AudioBuffer K) :
    mixDown [] audioBuffer.samples audioBuffer.spec.channels.count = channelMeans audioBuffer := by
  have hlength : (mixDown [] audioBuffer.samples audioBuffer.spec.channels.count).length =
      frames audioBuffer := by
    have hfold := LoopRules.length_foldl_modify (· / audioBuffer.spec.channels.count)
      (share audioBuffer.spec.channels.count) audioBuffer.samples.zipIdx
      (resize [] (frames audioBuffer))
    exact hfold.trans (length_resize [] _)
  apply List.ext_getElem?
  intro frame
  by_cases hframe : frame < frames audioBuffer
  · have hcell := LoopRules.getElem?_foldl_modify (· / audioBuffer.spec.channels.count)
      (fun sample : K => sample / ((audioBuffer.spec.channels.count : Int) : K))
      audioBuffer.samples.zipIdx (resize [] (frames audioBuffer)) frame
    have hsum := LoopRules.sum_zipIdx_window
      (fun sample : K => sample / ((audioBuffer.spec.channels.count : Int) : K))
      audioBuffer.samples _ _ (frames_mul_count audioBuffer) ⟨frame, hframe⟩
    have hmean : (channelMeans audioBuffer)[frame]? =
        some (∑ channel, sample audioBuffer ⟨frame, hframe⟩ channel /
          audioBuffer.spec.channels.count) := by
      rw [channelMeans, List.getElem?_ofFn, dif_pos hframe]
    rw [hmean]
    refine hcell.trans ?_
    rw [hsum, resize_nil, List.getElem?_replicate, if_pos hframe, Option.map_some, zero_add]
    simp only [sample_eq_get, Int.cast_natCast]
  · rw [List.getElem?_eq_none (by omega), List.getElem?_eq_none]
    rw [channelMeans, List.length_ofFn]
    omega

variable {A P δ : Type}

/-- Each call of a run leaves the mean over the channels of the packet it took, frame by
frame, and writes to no frame the buffer lacks. -/
theorem calls_mix (codecs : CodecRegistry A P δ K) (self self' : PacketDecoder A P δ K)
    (chunks : List (AudioSpec × List K)) (h : Calls codecs self chunks self') :
    ∃ audioBuffers : List (AudioBuffer K),
      decodedBuffers codecs self.trackDecoder self.format.events =
        audioBuffers ++ decodedBuffers codecs self'.trackDecoder self'.format.events ∧
      chunks = audioBuffers.map (fun audioBuffer =>
        (audioBuffer.spec, channelMeans audioBuffer)) ∧
      ∀ audioBuffer ∈ audioBuffers,
        mixDownChecked [] audioBuffer.samples audioBuffer.spec.channels.count =
          some (channelMeans audioBuffer) := by
  induction h with
  | done self => exact ⟨[], rfl, rfl, by simp⟩
  | call interleavedSamples monoFrames hnext hrest ih =>
    obtain ⟨audioBuffer, hbuffers, hspec, hframes⟩ := nextFrames_took codecs _ _ _ _ hnext
    obtain ⟨audioBuffers, hrestBuffers, hchunks, hchecked⟩ := ih
    have hmeans := mixDown_eq_channelMeans audioBuffer
    refine ⟨audioBuffer :: audioBuffers, ?_, ?_, ?_⟩
    · rw [hbuffers, hrestBuffers]
      rfl
    · rw [hspec, hframes, hmeans, hchunks]
      rfl
    · intro other hother
      cases hother with
      | head => rw [mixDownChecked_eq, hmeans]
      | tail _ hother => exact hchecked other hother

def bufferCodecs : CodecRegistry Unit (AudioBuffer ℝ) Unit ℝ where
  getAudioDecoder _ := true
  makeAudioDecoder _ := .ok ()
  decode _ audioBuffer := ((), .ok audioBuffer)

def stereo (left right : ℝ) : AudioBuffer ℝ :=
  ⟨⟨48000, ⟨3, 2, by decide⟩⟩, [left, right], dvd_refl 2⟩

def mono (sample : ℝ) : AudioBuffer ℝ := ⟨monoSpec 48000, [sample], one_dvd _⟩

def laterPackets (left right sample : ℝ) : List (Event Unit (AudioBuffer ℝ)) :=
  [.packet ⟨2, stereo left right⟩, .packet ⟨1, mono sample⟩]

/-- Two channels, another track's packet, then one channel: `[3]` and `[5]`. -/
theorem calls_mix_two : ∃ audioBuffers : List (AudioBuffer ℝ),
    decodedBuffers bufferCodecs ⟨1, ()⟩ (.packet ⟨1, stereo 2 4⟩ :: laterPackets 0 9 5) =
        audioBuffers ++ [] ∧
      [((stereo 2 4).spec, [3]), ((mono 5).spec, [5])] = audioBuffers.map (fun audioBuffer =>
        (audioBuffer.spec, channelMeans audioBuffer)) ∧
      ∀ audioBuffer ∈ audioBuffers,
        mixDownChecked [] audioBuffer.samples audioBuffer.spec.channels.count =
          some (channelMeans audioBuffer) := by
  have hstereo : mixDown [] (stereo 2 4).samples (stereo 2 4).spec.channels.count = [3] := by
    change [(((0 : Rat) : ℝ) + 2 / ((2 : Int) : ℝ)) + 4 / ((2 : Int) : ℝ)] = [3]
    norm_num
  have hmono : mixDown [] (mono 5).samples (mono 5).spec.channels.count = [5] := by
    change [((0 : Rat) : ℝ) + 5 / ((1 : Int) : ℝ)] = [5]
    norm_num
  have hread := nextPacket_packet bufferCodecs [] (laterPackets 0 9 5) ⟨1, ()⟩ [7]
    ⟨1, stereo 2 4⟩
  have hskip := nextPacket_packet bufferCodecs [] [.packet ⟨1, mono 5⟩] ⟨1, ()⟩ [6, 6]
    ⟨2, stereo 0 9⟩
  have hread' := nextPacket_packet bufferCodecs [] [] ⟨1, ()⟩ [6, 6] ⟨1, mono 5⟩
  have hfirst : nextFrames bufferCodecs _ [] = _ := nextFrames_decoded hread rfl rfl
  have hlast : nextFrames bufferCodecs _ [] = _ := nextFrames_decoded hread' rfl rfl
  rw [hstereo] at hfirst
  rw [hmono] at hlast
  have hsecond : Calls bufferCodecs ⟨⟨[], laterPackets 0 9 5⟩, ⟨1, ()⟩, [2, 4]⟩
      [((mono 5).spec, [5])] ⟨⟨[], []⟩, ⟨1, ()⟩, [5]⟩ :=
    .call [6, 6] [3] ((nextFrames_skipped hskip (by decide)).trans hlast) (.done _)
  have hrun : Calls bufferCodecs
      ⟨⟨[], .packet ⟨1, stereo 2 4⟩ :: laterPackets 0 9 5⟩, ⟨1, ()⟩, []⟩
      [((stereo 2 4).spec, [3]), ((mono 5).spec, [5])] ⟨⟨[], []⟩, ⟨1, ()⟩, [5]⟩ :=
    .call [7] [8] hfirst hsecond
  exact calls_mix bufferCodecs _ _ _ hrun

end Mean

end Mixdown
