import Mathlib
import ShazamioCore.Mixdown
import ShazamioCore.PcmSamples

/-!
# Streams of no audio

Whether there is audio is judged by the first packet alone, and one of no frames is a
packet too. A stream none of whose packets holds a frame opens, and is resampled to no
samples.
-/
namespace EmptyStream

open Decode DecodeScript CutShort Mixdown MonoStream Resample WholeClip PcmSamples Opus

variable {A P δ α σ β E : Type} [LinearOrder α] [F32 α] [LinearOrder β] [F64 β]

section Buffers

omit [LinearOrder β] [F64 β]

/-- A packet has no mono frame where it has no sample. -/
theorem chunkOf_eq_nil (audioBuffer : AudioBuffer α) :
    (chunkOf audioBuffer).2 = [] ↔ audioBuffer.samples = [] := by
  rw [chunkOf, List.map_eq_nil_iff]
  constructor
  · intro hrows
    rw [← LoopRules.flatten_rows audioBuffer.whole_frames, hrows, List.flatten_nil]
  · intro hsamples
    simp [LoopRules.rows, hsamples]

/-- Of a script that ends well, the chunks are those of the buffers decoded. -/
theorem chunksOf_eq_decodedBuffers (codecs : CodecRegistry A P δ α)
    (trackDecoder : TrackDecoder δ) (events : List (Event A P)) (front : List (Item α))
    (h : LastCut front (script codecs trackDecoder events).1) :
    chunksOf front = (decodedBuffers codecs trackDecoder events).map chunkOf := by
  have hnil : ∀ front : List (Item α), LastCut front [] → chunksOf front = [] := by
    rintro front ⟨-, rfl | ⟨kind, hitems⟩⟩
    · rfl
    · simp at hitems
  induction events generalizing trackDecoder front with
  | nil => exact hnil front h
  | cons event events ih =>
    cases event with
    | packet packet =>
      rw [decodedBuffers]
      by_cases htrack : packet.trackId = trackDecoder.trackId
      · rw [if_neg (not_not.mpr htrack)]
        cases hdecode : codecs.decode trackDecoder.decoder packet.data with
        | mk decoder result =>
          rw [script_packet codecs events htrack hdecode] at h
          cases result with
          | ok audioBuffer =>
            obtain ⟨rest, rfl, hrest⟩ := h.of_cons (by rintro error ⟨⟩)
            rw [chunksOf_cons, ih _ rest hrest]
            rfl
          | error error =>
            obtain ⟨rfl, -, -⟩ := LastCut.of_failed h
            rfl
      · rw [script_skipped codecs events htrack] at h
        obtain ⟨rest, rfl, hrest⟩ := h.of_cons (by rintro error ⟨⟩)
        rw [if_pos htrack, chunksOf_cons, ih trackDecoder rest hrest]
        rfl
    | resetRequired tracks =>
      rw [decodedBuffers]
      cases hbuilt : decoderFor codecs tracks with
      | error error =>
        rw [script, hbuilt] at h
        exact hnil front h
      | ok trackDecoder' =>
        rw [script_resetRequired codecs events hbuilt] at h
        exact ih trackDecoder' front h
    | endOfStream => exact hnil front h
    | error error herror => exact hnil front h

end Buffers

/-- Whatever opens and yields samples has decoded a frame, and there are samples. -/
def NeverEmpty (codecs : CodecRegistry A P δ α)
    (sincResampler : UInt32 → Except E (Resampler σ α β E))
    (probed : Except Error (FormatReader A P)) : Prop :=
  ∀ decoder fuel samples, MonoDecoder.new codecs probed = .ok decoder →
    pcmSamples codecs sincResampler fuel decoder = some (.ok samples) →
      (nextChunks codecs decoder []).1.flatten ≠ [] ∧ samples ≠ []

/-- The stream ends cleanly, with at least one packet decoded, all under one spec there is a
resampler for, and all to no samples. -/
def OpensOnNothing (codecs : CodecRegistry A P δ α)
    (sincResampler : UInt32 → Except E (Resampler σ α β E))
    (probed : Except Error (FormatReader A P)) : Prop :=
  ∃ format trackDecoder front spec r, probed = .ok format ∧
    decoderFor codecs format.tracks = .ok trackDecoder ∧ EndsCleanly codecs format.events ∧
    LastCut front (script codecs trackDecoder format.events).1 ∧
    decodedBuffers codecs trackDecoder format.events ≠ [] ∧
    (∀ audioBuffer ∈ decodedBuffers codecs trackDecoder format.events,
      audioBuffer.spec = spec ∧ audioBuffer.samples = []) ∧
    sincResampler spec.rate = .ok r

/-- A stream of packets without a frame opens and yields no samples, without an error. -/
theorem opensOnNothing_accepted {codecs : CodecRegistry A P δ α}
    {sincResampler : UInt32 → Except E (Resampler σ α β E)}
    {probed : Except Error (FormatReader A P)}
    (h : OpensOnNothing codecs sincResampler probed) :
    ∃ decoder, MonoDecoder.new codecs probed = .ok decoder ∧
      pcmSamples codecs sincResampler 1 decoder = some (.ok []) := by
  obtain ⟨format, trackDecoder, front, spec, r, rfl, hbuilt, hend, hcut, hbuffers, hsilent, hr⟩ := h
  have hchunksOf := chunksOf_eq_decodedBuffers codecs trackDecoder format.events front hcut
  have hsome : chunksOf front ≠ [] := by
    rwa [hchunksOf, Ne, List.map_eq_nil_iff]
  have hempty : ∀ chunk ∈ chunksOf front, chunk = (spec, []) := by
    rw [hchunksOf, List.forall_mem_map]
    intro audioBuffer hmem
    obtain ⟨hspec, hsamples⟩ := hsilent audioBuffer hmem
    exact Prod.ext hspec ((chunkOf_eq_nil audioBuffer).mpr hsamples)
  have hall : decodeAll codecs ⟨format, trackDecoder, []⟩ [] = (chunksOf front, none) := by
    rw [decodeAll_script, judge_ended, script_ended]
    exact ⟨hend, front, hcut, rfl⟩
  have hnew := new_chunks codecs format trackDecoder hbuilt
  obtain ⟨chunk, chunks, hchunks⟩ := List.exists_cons_of_ne_nil hsome
  rw [hall, hchunks] at hnew
  rw [hchunks] at hempty
  obtain ⟨decoder, hnew, hspec, hrun⟩ := hnew
  have hchunk := hempty chunk List.mem_cons_self
  rw [hchunk] at hspec
  rw [ofSpec_same _ _ _ fun later hlater => by rw [hempty later hlater, hchunk]] at hrun
  refine ⟨decoder, hnew, (pcmSamples_ok codecs sincResampler 1 decoder []).mpr
    ⟨r, _, by rw [hspec, hr], hrun, ?_⟩⟩
  have hflatten : ((chunk :: chunks).map Prod.snd).flatten = [] := by
    rw [List.flatten_eq_nil_iff]
    intro frames hframes
    obtain ⟨later, hlater, rfl⟩ := List.mem_map.mp hframes
    rw [hempty later hlater]
  rw [hflatten]
  exact wholeClip_nil r 0

/-- A stream that decodes to nothing is refused exactly if it does not open on a packet of
no frames and go on with no others. -/
theorem neverEmpty_iff (codecs : CodecRegistry A P δ α)
    (sincResampler : UInt32 → Except E (Resampler σ α β E))
    (hratio : ∀ rate r, sincResampler rate = .ok r → F64.ofNat 0 < r.resampleRatio)
    (probed : Except Error (FormatReader A P)) :
    NeverEmpty codecs sincResampler probed ↔ ¬OpensOnNothing codecs sincResampler probed := by
  constructor
  · intro hnever hnothing
    obtain ⟨decoder, hnew, hpcm⟩ := opensOnNothing_accepted hnothing
    exact (hnever decoder 1 [] hnew hpcm).2 rfl
  · intro hsomething decoder fuel samples hnew hpcm
    obtain ⟨format, trackDecoder, chunk, chunks, failure, rfl, hbuilt, hall, hspec, hrun⟩ :=
      new_eq_ok codecs hnew
    obtain ⟨r, frames, hr, hframes, hclip⟩ := (pcmSamples_ok _ _ _ _ _).mp hpcm
    rw [hframes] at hrun ⊢
    obtain ⟨rfl, hsame, rfl⟩ := (ofSpec_none _ _ _ _).mp hrun.symm
    have hsome : ((chunk :: chunks).map Prod.snd).flatten ≠ [] := by
      intro hflatten
      apply hsomething
      rw [decodeAll_script, judge_ended, script_ended] at hall
      obtain ⟨hend, front, hcut, hfront⟩ := hall
      rw [chunksOf_eq_decodedBuffers codecs trackDecoder format.events front hcut] at hfront
      refine ⟨format, trackDecoder, front, chunk.1, r, rfl, hbuilt, hend, hcut, ?_, ?_, ?_⟩
      · rw [Ne, ← List.map_eq_nil_iff, ← hfront]
        exact List.cons_ne_nil _ _
      · intro audioBuffer hmem
        have hchunk : chunkOf audioBuffer ∈ chunk :: chunks := hfront ▸ List.mem_map_of_mem hmem
        have hnone := List.flatten_eq_nil_iff.mp hflatten _ (List.mem_map_of_mem hchunk)
        exact ⟨hsame _ hchunk, (chunkOf_eq_nil audioBuffer).mp hnone⟩
      · rw [← hspec, hr]
    refine ⟨hsome, fun hsamples => ?_⟩
    have hlength := wholeClip_length r fuel _ samples hclip
    have hpos := outputFrameCount_pos r (hratio _ r hr) _ (List.length_pos_iff.mpr hsome)
    rw [hsamples, List.length_nil, clipLength_eq] at hlength
    omega

section Preskip

/-- `libopus` over packets that carry no audio: 20 ms of silence each. -/
def silentLibopus : Libopus Unit ℝ where
  new _ _ := some ()
  decodeFloat channelCount _ _ :=
    ((), some (List.replicate 960 (Vector.replicate channelCount 0)))

/-- A header of one channel that has the first 80 ms skipped. -/
def shortHead : List UInt8 :=
  opusHeadMagic ++ [1, 1, 0x00, 0x0f, 0x80, 0xbb, 0, 0, 0, 0, 0]

/-- A stream of one packet, shorter than what is skipped. -/
def shortStream : FormatReader (Option (List UInt8)) PacketRef where
  tracks := [⟨0, some (.audio (some shortHead))⟩]
  events := [.packet ⟨0, ⟨[0x78], 0, 0⟩⟩, .endOfStream]

noncomputable def sincResampler (rate : UInt32) : Except Unit (Resampler Nat ℝ Rat Unit) :=
  if rate = 48000 then .ok decimator else .error ()

theorem sincResampler_ratio (rate : UInt32) (r : Resampler Nat ℝ Rat Unit)
    (h : sincResampler rate = .ok r) : F64.ofNat 0 < r.resampleRatio := by
  rw [sincResampler] at h
  split at h
  · cases h
    change ((0 : Nat) : Rat) < 1 / 3
    norm_num
  · cases h

theorem shortStream_opensOnNothing :
    OpensOnNothing (opusCodecs silentLibopus) sincResampler (.ok shortStream) := by
  have hdecoder : ∃ gain, tryNew silentLibopus (some shortHead) =
      .ok ⟨(), 1, gain, 3840, Nat.one_pos⟩ := ⟨_, rfl⟩
  obtain ⟨gain, hdecoder⟩ := hdecoder
  have hskip : (List.replicate 960 (Vector.replicate 1 (0 : ℝ))).length ≤ 3840 := by
    rw [List.length_replicate]
    omega
  obtain ⟨audioBuffer, hsamples, hspec, hdecode⟩ := decodeRef_skipped silentLibopus
    ⟨(), 1, gain, 3840, Nat.one_pos⟩ ⟨[0x78], 0, 0⟩ rfl hskip
  have hbuilt : decoderFor (opusCodecs silentLibopus) shortStream.tracks =
      .ok ⟨0, ⟨(), 1, gain, 3840, Nat.one_pos⟩⟩ := by
    change (tryNew silentLibopus (some shortHead)).map _ = _
    rw [hdecoder]
    rfl
  have hbuffers : decodedBuffers (opusCodecs silentLibopus) ⟨0, ⟨(), 1, gain, 3840, Nat.one_pos⟩⟩
      shortStream.events = [audioBuffer] := by
    rw [shortStream, decodedBuffers]
    simp only [opusCodecs, hdecode]
    rfl
  refine ⟨shortStream, _, [.decoded (chunkOf audioBuffer)], ⟨48000, discrete 1 Nat.one_pos⟩,
    decimator, rfl, hbuilt, trivial, ⟨by simp, .inl ?_⟩, ?_, ?_, if_pos rfl⟩
  · rw [shortStream, script_packet _ _ rfl hdecode]
    rfl
  · rw [hbuffers]
    exact List.cons_ne_nil _ _
  · rw [hbuffers, List.forall_mem_singleton]
    exact ⟨hspec, hsamples⟩

/-- The stream is fingerprinted as no audio, without an error. -/
theorem shortStream_accepted :
    ∃ decoder, MonoDecoder.new (opusCodecs silentLibopus) (.ok shortStream) = .ok decoder ∧
      pcmSamples (opusCodecs silentLibopus) sincResampler 1 decoder = some (.ok []) :=
  opensOnNothing_accepted shortStream_opensOnNothing

theorem shortStream_neverEmpty_iff :
    (∀ rate r, sincResampler rate = .ok r → F64.ofNat 0 < r.resampleRatio) ∧
      (NeverEmpty (opusCodecs silentLibopus) sincResampler (.ok shortStream) ↔
        ¬OpensOnNothing (opusCodecs silentLibopus) sincResampler (.ok shortStream)) :=
  ⟨sincResampler_ratio, neverEmpty_iff _ _ sincResampler_ratio _⟩

end Preskip

end EmptyStream
