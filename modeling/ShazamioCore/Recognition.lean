import Mathlib
import ShazamioCore.ChainedStream
import ShazamioCore.Communication
import ShazamioCore.EmptyStream
import ShazamioCore.PcmSamples
import ShazamioCore.Segment
import ShazamioCore.SignatureSize

/-!
# From a source to its signature

The worker opens a source, reads it a packet at a time into the resampler, and fingerprints
the middle of what comes out. Told at once, it decodes the whole stream, resamples the whole
clip and cuts the samples: the two agree on every source, with every way it can fail. What the
probe, the codecs, the resampler and the transform do is a parameter.
-/
namespace Recognition

open Decode DecodeScript MonoStream ChainedStream Resample WholeClip PcmSamples MachineInt
  SignatureFormat Algorithm Segment

/-- How a run of the worker ends, if it does within its fuel. -/
inductive Outcome (ε τ : Type) where
  | running
  | panicked
  | returned (result : Except ε τ)

def Outcome.ofOption {ε τ : Type} : Option τ → Outcome ε τ
  | none => .panicked
  | some value => .returned (.ok value)

inductive MediaSource where
  | cursor (bytes : List UInt8)
  | file (contents : List UInt8)

/-- What the source calls and does not define. -/
structure Backend (A P δ α σ β E : Type) where
  width : UsizeWidth
  overflow : Overflow
  probe : MediaSource → Except Error (FormatReader A P)
  codecs : CodecRegistry A P δ α
  sincResampler : UInt32 → Except E (Resampler σ α β E)
  fft : Vector α 2048 → Vector (α × α) 1025

variable {A P δ α σ β E : Type} [LinearOrder α] [F32 α] [LinearOrder β] [F64 β]

def fromBytes (backend : Backend A P δ α σ β E) (bytes : List UInt8) :
    Except Error (MonoDecoder A P δ α) :=
  MonoDecoder.new backend.codecs (backend.probe (.cursor bytes))

/-- `MonoDecoder::from_file`, given what opening the file comes to. -/
def fromFile (backend : Backend A P δ α σ β E) (opened : Except ErrorKind (List UInt8)) :
    Except Error (MonoDecoder A P δ α) :=
  match opened with
  | .error kind => .error (.ioError kind)
  | .ok contents => MonoDecoder.new backend.codecs (backend.probe (.file contents))

def fingerprint (backend : Backend A P δ α σ β E) (segmentDurationSeconds : Option UInt32)
    (rawPcmSamples : Option (Except (Failure E) (List Int16))) :
    Outcome (Failure E) DecodedSignature :=
  match rawPcmSamples with
  | none => .running
  | some (.error failure) => .returned (.error failure)
  | some (.ok rawPcmSamples) =>
    .ofOption (Segment.makeSignature backend.width backend.overflow backend.fft rawPcmSamples
      segmentDurationSeconds)

/-- `make_signature`, from the decoder on. -/
def makeSignature (backend : Backend A P δ α σ β E) (fuel : Nat)
    (decoder : Except Error (MonoDecoder A P δ α)) (segmentDurationSeconds : Option UInt32) :
    Outcome (Failure E) DecodedSignature :=
  match decoder with
  | .error error => .returned (.error (.decoding error))
  | .ok decoder =>
    fingerprint backend segmentDurationSeconds
      (pcmSamples backend.codecs backend.sincResampler fuel decoder)

def makeSignatureFromBytes (backend : Backend A P δ α σ β E) (fuel : Nat) (bytes : List UInt8)
    (segmentDurationSeconds : Option UInt32) : Outcome (Failure E) DecodedSignature :=
  makeSignature backend fuel (fromBytes backend bytes) segmentDurationSeconds

def makeSignatureFromFile (backend : Backend A P δ α σ β E) (fuel : Nat)
    (opened : Except ErrorKind (List UInt8)) (segmentDurationSeconds : Option UInt32) :
    Outcome (Failure E) DecodedSignature :=
  makeSignature backend fuel (fromFile backend opened) segmentDurationSeconds

/-- A source through its own entry point: bytes as they are, a file once it is open. -/
def makeSignatureFrom (backend : Backend A P δ α σ β E) (fuel : Nat) (source : MediaSource)
    (segmentDurationSeconds : Option UInt32) : Outcome (Failure E) DecodedSignature :=
  match source with
  | .cursor bytes => makeSignatureFromBytes backend fuel bytes segmentDurationSeconds
  | .file contents => makeSignatureFromFile backend fuel (.ok contents) segmentDurationSeconds

section AtOnce

/-- All that is heard of a stream: the rate of its first packet, its mono frames to the last,
and the error its reading stops with, if any. -/
structure Heard (α : Type) where
  rate : UInt32
  frames : List α
  failure : Option Error

def hear (codecs : CodecRegistry A P δ α) (decoder : MonoDecoder A P δ α) : Heard α where
  rate := decoder.spec.rate
  frames := (nextChunks codecs decoder []).1.flatten
  failure := (nextChunks codecs decoder []).2

/-- The samples of a stream heard to its end, resampled as one clip. A stream that fails is
resampled up to there, where the resampler can fail before it. -/
def samplesAtOnce (sincResampler : UInt32 → Except E (Resampler σ α β E)) (fuel : Nat)
    (heard : Heard α) : Option (Except (Failure E) (List Int16)) :=
  match sincResampler heard.rate with
  | .error error => some (.error (.resampling error))
  | .ok r =>
    match heard.failure with
    | none => (wholeClip r fuel heard.frames).map (Except.mapError .resampling)
    | some failure =>
      match consume r r.start [] heard.frames with
      | .error error => some (.error (.resampling error))
      | .ok _ => some (.error (.decoding failure))

section Push

variable (codecs : CodecRegistry A P δ α) (r : Resampler σ α β E)

omit [LinearOrder β] [F64 β]

/-- The loop of `pcm_samples` pushes every chunk there is, and fails as the first of the two
that fail does. -/
theorem pushChunks_fold (decoder : MonoDecoder A P δ α) (monoFrames : List α)
    (resampling : Resampling σ α) :
    pushChunks codecs r decoder monoFrames resampling =
      match (nextChunks codecs decoder monoFrames).1.foldlM (push r) resampling with
      | .error error => .error (.resampling error)
      | .ok resampling =>
        match (nextChunks codecs decoder monoFrames).2 with
        | some failure => .error (.decoding failure)
        | none => .ok resampling := by
  rw [pushChunks_eq, nextChunks_eq]
  cases hchunk : decoder.nextChunk codecs monoFrames with
  | error error => rfl
  | ok result =>
    obtain ⟨more, decoder', monoFrames'⟩ := result
    cases more with
    | false => rfl
    | true =>
      simp only [List.foldlM_cons]
      cases hpush : push r resampling monoFrames' with
      | error error => rfl
      | ok pushed => exact pushChunks_fold decoder' monoFrames' pushed
termination_by left decoder
decreasing_by exact nextChunk_shrinks hchunk

end Push

/-- Packet by packet, the samples are those of the whole clip. -/
theorem pcmSamples_atOnce (codecs : CodecRegistry A P δ α)
    (sincResampler : UInt32 → Except E (Resampler σ α β E)) (fuel : Nat)
    (decoder : MonoDecoder A P δ α) :
    pcmSamples codecs sincResampler fuel decoder =
      samplesAtOnce sincResampler fuel (hear codecs decoder) := by
  rw [pcmSamples, samplesAtOnce, hear]
  cases sincResampler decoder.spec.rate with
  | error error => rfl
  | ok r =>
    have hclip := resample_eq_wholeClip r fuel (nextChunks codecs decoder []).1
    have hpushed := foldlM_push_represent r (nextChunks codecs decoder []).1 0 r.start [] []
      (Nat.zero_le _)
    rw [List.nil_append, ← new_eq] at hpushed
    rw [resample] at hclip
    simp only [pushChunks_fold]
    cases hfailure : (nextChunks codecs decoder []).2 with
    | none =>
      simp only [← hclip]
      cases (nextChunks codecs decoder []).1.foldlM (push r) (new r) with
      | error error => rfl
      | ok resampling => rfl
    | some failure =>
      cases hfold : (nextChunks codecs decoder []).1.foldlM (push r) (new r) with
      | error error =>
        rw [hfold] at hpushed
        cases hconsume : consume r r.start [] (nextChunks codecs decoder []).1.flatten with
        | error error' =>
          rw [hconsume] at hpushed
          cases hpushed
          rfl
        | ok consumed =>
          rw [hconsume] at hpushed
          cases hpushed
      | ok resampling =>
        rw [hfold] at hpushed
        cases hconsume : consume r r.start [] (nextChunks codecs decoder []).1.flatten with
        | error error =>
          rw [hconsume] at hpushed
          cases hpushed
        | ok consumed => rfl

/-- A stream heard at once: every packet of the track decoded, what stops the reading judged
over all of it, and the chunks kept up to one of another spec. -/
def hearAll (codecs : CodecRegistry A P δ α) (probed : Except Error (FormatReader A P)) :
    Except Error (Heard α) := do
  let format ← probed.mapError probeError
  let trackDecoder ← decoderFor codecs format.tracks
  let (items, stop) := script codecs trackDecoder format.events
  match judge items stop with
  | ([], failure) => .error (failure.getD (.decodeError "the stream carries no decodable audio"))
  | (chunk :: chunks, failure) =>
    let (kept, failure) := ofSpec chunk.1 (chunk :: chunks) failure
    return ⟨chunk.1.rate, kept.flatten, failure⟩

omit [LinearOrder β] [F64 β] in
/-- Heard at once, a stream is what a decoder of it hands out chunk by chunk. -/
theorem hearAll_eq (codecs : CodecRegistry A P δ α) (probed : Except Error (FormatReader A P)) :
    hearAll codecs probed = (MonoDecoder.new codecs probed).map (hear codecs) := by
  cases hprobed : probed.mapError probeError with
  | error error =>
    rw [hearAll, MonoDecoder.new, hprobed]
    rfl
  | ok format =>
    obtain rfl : probed = .ok format := by
      cases probed with
      | error error => cases hprobed
      | ok format' =>
        cases hprobed
        rfl
    cases hbuilt : decoderFor codecs format.tracks with
    | error error =>
      rw [new_unbuilt codecs format error hbuilt, hearAll, hprobed]
      simp only [bind, Except.bind, hbuilt]
      rfl
    | ok trackDecoder =>
      have hnew := new_chunks codecs format trackDecoder hbuilt
      have hscript := decodeAll_script codecs [] format.tracks format.events trackDecoder []
      rw [hearAll, hprobed]
      simp only [bind, Except.bind, hbuilt]
      rw [← hscript]
      split at hnew
      · rename_i failure hall
        rw [hall, hnew]
        rfl
      · rename_i chunk chunks failure hall
        obtain ⟨decoder, hnew, hspec, hchunks⟩ := hnew
        rw [hall, hnew]
        simp only [hear, hspec, hchunks, Except.map]
        rfl

def signatureAtOnce (backend : Backend A P δ α σ β E) (fuel : Nat) (source : MediaSource)
    (segmentDurationSeconds : Option UInt32) : Outcome (Failure E) DecodedSignature :=
  match hearAll backend.codecs (backend.probe source) with
  | .error error => .returned (.error (.decoding error))
  | .ok heard =>
    fingerprint backend segmentDurationSeconds (samplesAtOnce backend.sincResampler fuel heard)

end AtOnce

theorem makeSignature_source (backend : Backend A P δ α σ β E) (fuel : Nat) (source : MediaSource)
    (segmentDurationSeconds : Option UInt32) :
    makeSignature backend fuel (MonoDecoder.new backend.codecs (backend.probe source))
      segmentDurationSeconds = signatureAtOnce backend fuel source segmentDurationSeconds := by
  rw [signatureAtOnce, hearAll_eq]
  unfold makeSignature
  cases MonoDecoder.new backend.codecs (backend.probe source) with
  | error error => rfl
  | ok decoder => simp only [Except.map, pcmSamples_atOnce]

theorem makeSignatureFrom_eq (backend : Backend A P δ α σ β E) (fuel : Nat)
    (source : MediaSource) (segmentDurationSeconds : Option UInt32) :
    makeSignatureFrom backend fuel source segmentDurationSeconds =
      signatureAtOnce backend fuel source segmentDurationSeconds := by
  cases source with
  | cursor bytes => exact makeSignature_source backend fuel (.cursor bytes) segmentDurationSeconds
  | file contents => exact makeSignature_source backend fuel (.file contents) segmentDurationSeconds

/-- A packet at a time or all at once, a source of bytes or a file that opens has the same
signature or fails in the same way; one that does not open fails as it was opened. -/
theorem makeSignature_atOnce (backend : Backend A P δ α σ β E) (fuel : Nat)
    (segmentDurationSeconds : Option UInt32) :
    (∀ bytes, makeSignatureFromBytes backend fuel bytes segmentDurationSeconds =
      signatureAtOnce backend fuel (.cursor bytes) segmentDurationSeconds) ∧
    (∀ contents, makeSignatureFromFile backend fuel (.ok contents) segmentDurationSeconds =
      signatureAtOnce backend fuel (.file contents) segmentDurationSeconds) ∧
    ∀ kind, makeSignatureFromFile backend fuel (.error kind) segmentDurationSeconds =
      .returned (.error (.decoding (.ioError kind))) :=
  ⟨fun bytes => makeSignature_source backend fuel (.cursor bytes) segmentDurationSeconds,
    fun contents => makeSignature_source backend fuel (.file contents) segmentDurationSeconds,
    fun _ => rfl⟩

section Chain

omit [LinearOrder β] [F64 β]

/-- Links of one spec are heard as their frames put together, to the end of the last. -/
theorem hearAll_chain (codecs : CodecRegistry A P δ α) (first : Link A P) (links : List (Link A P))
    (h : ∀ link ∈ first :: links, link.Plays codecs) (spec : AudioSpec)
    (hspec : ∀ link ∈ first :: links, ∀ chunk ∈ link.chunks codecs, chunk.1 = spec) :
    hearAll codecs (.ok (chain first links)) = .ok {
      rate := spec.rate
      frames := (first :: links).flatMap fun link => (link.chunks codecs).flatMap Prod.snd
      failure := none } := by
  obtain ⟨trackDecoder, hbuilt⟩ := (h first List.mem_cons_self).built
  have hall := decodeAll_chain codecs first links h hbuilt [] []
  have hnew := new_chunks codecs (chain first links) trackDecoder hbuilt
  have hsame : ∀ chunk ∈ (first :: links).flatMap (Link.chunks codecs), chunk.1 = spec := by
    intro chunk hchunk
    obtain ⟨link, hlink, hmem⟩ := List.mem_flatMap.mp hchunk
    exact hspec link hlink chunk hmem
  have hnonempty : (first :: links).flatMap (Link.chunks codecs) ≠ [] := by
    rw [List.flatMap_cons, Ne, List.append_eq_nil_iff, not_and_or]
    exact Or.inl (h first List.mem_cons_self).nonempty
  have hframes : (first :: links).flatMap (fun link => (link.chunks codecs).flatMap Prod.snd) =
      (((first :: links).flatMap (Link.chunks codecs)).map Prod.snd).flatten := by
    rw [← List.flatMap_def, List.flatMap_assoc]
  rw [hframes]
  generalize (first :: links).flatMap (Link.chunks codecs) = chunks at *
  rw [hall] at hnew
  cases chunks with
  | nil => exact absurd rfl hnonempty
  | cons opening rest =>
    obtain ⟨decoder, hnew, hdecoder, hchunks⟩ := hnew
    have hopening := hsame opening List.mem_cons_self
    rw [hopening, ofSpec_same spec _ none hsame] at hchunks
    rw [hearAll_eq, hnew, Except.map, hear, hchunks, hdecoder, hopening]

end Chain

/-- A chain of links of one spec has the signature of one link that holds the same audio,
however either is cut into packets. -/
theorem chain_recognised (backend : Backend A P δ α σ β E) (fuel : Nat)
    (segmentDurationSeconds : Option UInt32) (source source' : MediaSource)
    (first whole : Link A P) (links : List (Link A P)) (spec : AudioSpec)
    (hprobe : backend.probe source = .ok (chain first links))
    (hprobe' : backend.probe source' = .ok whole.reader)
    (hplays : ∀ link ∈ whole :: first :: links, link.Plays backend.codecs)
    (hspec : ∀ link ∈ whole :: first :: links, ∀ chunk ∈ link.chunks backend.codecs,
      chunk.1 = spec)
    (haudio : (whole.chunks backend.codecs).flatMap Prod.snd =
      (first :: links).flatMap fun link => (link.chunks backend.codecs).flatMap Prod.snd) :
    makeSignatureFrom backend fuel source segmentDurationSeconds =
      makeSignatureFrom backend fuel source' segmentDurationSeconds := by
  obtain ⟨hwhole, hlinks⟩ := List.forall_mem_cons.mp hplays
  obtain ⟨hwholeSpec, hlinksSpec⟩ := List.forall_mem_cons.mp hspec
  have hchain := hearAll_chain backend.codecs first links hlinks spec hlinksSpec
  have halone := hearAll_chain backend.codecs whole [] (by simpa using hwhole) spec
    (by simpa using hwholeSpec)
  change hearAll backend.codecs (.ok whole.reader) = _ at halone
  rw [List.flatMap_singleton, haudio] at halone
  rw [makeSignatureFrom_eq, makeSignatureFrom_eq, signatureAtOnce, signatureAtOnce, hprobe,
    hprobe', hchain, halone]

section Returns

/-- The samples analysed of a source: the middle of the whole clip, resampled from all that is
heard, of as many samples as the ratio makes of it or as the duration asks for. -/
def Analysed (backend : Backend A P δ α σ β E) (source : MediaSource)
    (segmentDurationSeconds : Option UInt32) (segment : List Int16) : Prop :=
  ∃ heard r fuel samples, ∃ slice : Slice samples,
    hearAll backend.codecs (backend.probe source) = .ok heard ∧ heard.failure = none ∧
    backend.sincResampler heard.rate = .ok r ∧
    wholeClip r fuel heard.frames = some (.ok samples) ∧
    Centred samples (wanted segmentDurationSeconds) slice ∧ segment = slice.toVec ∧
    segment.length = min (clipLength r heard.frames.length) (wanted segmentDurationSeconds)

/-- A signature the encoder takes whole, made of the samples analysed of a source. -/
structure Signed (backend : Backend A P δ α σ β E) (source : MediaSource)
    (segmentDurationSeconds : Option UInt32) (signature : DecodedSignature) : Prop where
  encodable : SignatureReader.Encodable signature
  rate : signature.sampleRateHz = 16000
  analysed : ∃ segment, Analysed backend source segmentDurationSeconds segment ∧
    segment.length ≤ 2 ^ 30 ∧ signature.numberSamples.toNat = segment.length ∧
    makeSignatureFromBuffer backend.overflow backend.fft segment = some signature

omit [LinearOrder β] [F64 β] in
/-- Samples of which no more than 2^30 are analysed have a signature: that of their middle. -/
theorem fingerprint_returns (backend : Backend A P δ ℝ σ β E) (samples : List Int16)
    (segmentDurationSeconds : Option UInt32) (hfit : samples.length ≤ backend.width.max)
    (hshort : min samples.length (wanted segmentDurationSeconds) ≤ 2 ^ 30) :
    ∃ (slice : Slice samples) (signature : DecodedSignature),
      fingerprint backend segmentDurationSeconds (some (.ok samples)) =
        .returned (.ok signature) ∧
      Centred samples (wanted segmentDurationSeconds) slice ∧
      slice.toVec.length = min samples.length (wanted segmentDurationSeconds) ∧
      makeSignatureFromBuffer backend.overflow backend.fft slice.toVec = some signature ∧
      SignatureReader.Encodable signature := by
  obtain ⟨slice, hslice, hcentred⟩ := middleSegment_spec backend.width backend.overflow samples
    hfit segmentDurationSeconds
  have hlength : slice.toVec.length = min samples.length (wanted segmentDurationSeconds) := by
    rcases Nat.lt_or_ge (wanted segmentDurationSeconds) samples.length with hlong | hwhole
    · rw [hcentred.length hlong, Nat.min_eq_right hlong.le]
    · rw [hcentred.whole hwhole, Slice.length_toVec, Nat.min_eq_left hwhole]
      rfl
  obtain ⟨signature, hmake, hencodable, -⟩ :=
    SignatureSize.signature_encodable backend.overflow backend.fft slice.toVec (hlength ▸ hshort)
  have hsignature : Segment.makeSignature backend.width backend.overflow backend.fft samples
      segmentDurationSeconds = some signature := by
    rw [Segment.makeSignature, hslice]
    exact hmake
  refine ⟨slice, signature, ?_, hcentred, hlength, hmake, hencodable⟩
  rw [fingerprint, hsignature]
  rfl

/-- What is resampled of a source fits the address space, and what is analysed of it is no more
than 2^30 samples, some eighteen hours. -/
def Fits (backend : Backend A P δ α σ β E) (source : MediaSource)
    (segmentDurationSeconds : Option UInt32) : Prop :=
  ∀ heard r, hearAll backend.codecs (backend.probe source) = .ok heard →
    backend.sincResampler heard.rate = .ok r →
      clipLength r heard.frames.length ≤ backend.width.max ∧
        min (clipLength r heard.frames.length) (wanted segmentDurationSeconds) ≤ 2 ^ 30

/-- What the resampling of a clip comes to, its signature comes to. -/
theorem fingerprint_clip (backend : Backend A P δ ℝ σ β E) {source : MediaSource}
    {segmentDurationSeconds : Option UInt32} (hfits : Fits backend source segmentDurationSeconds)
    {heard : Heard ℝ} (hheard : hearAll backend.codecs (backend.probe source) = .ok heard)
    (hfailure : heard.failure = none) {r : Resampler σ ℝ β E}
    (hr : backend.sincResampler heard.rate = .ok r) {fuel : Nat}
    {clip : Except E (List Int16)} (hclip : wholeClip r fuel heard.frames = some clip) :
    ∃ result, fingerprint backend segmentDurationSeconds
        ((some clip).map (Except.mapError .resampling)) = .returned result ∧
      ∀ signature, result = .ok signature →
        Signed backend source segmentDurationSeconds signature := by
  cases clip with
  | error error => exact ⟨.error (.resampling error), rfl, by rintro _ ⟨⟩⟩
  | ok samples =>
    have hclipLength := wholeClip_length r fuel heard.frames samples hclip
    obtain ⟨hwidth, hshort⟩ := hfits heard r hheard hr
    rw [← hclipLength] at hwidth hshort
    obtain ⟨slice, signature, hreturned, hcentred, hlength, hmake, hencodable⟩ :=
      fingerprint_returns backend samples segmentDurationSeconds hwidth hshort
    refine ⟨.ok signature, hreturned, ?_⟩
    rintro _ ⟨⟩
    obtain ⟨hrate, hnumber⟩ := ChunkRuns.makeSignatureFromBuffer_labels hmake
    have hsegment : slice.toVec.length ≤ 2 ^ 30 := hlength ▸ hshort
    refine ⟨hencodable, hrate, slice.toVec, ?_, hsegment, ?_, hmake⟩
    · exact ⟨heard, r, fuel, samples, slice, hheard, hfailure, hr, hclip, hcentred, rfl,
        hclipLength ▸ hlength⟩
    · rw [hnumber, UInt32.toNat_ofNat_of_lt' (Nat.lt_of_le_of_lt hsegment (by decide))]

/-- The worker never panics on a source that fits, and what it returns is an error or a
signature of what is heard. -/
theorem signatureAtOnce_sound (backend : Backend A P δ ℝ σ β E) (fuel : Nat)
    {source : MediaSource} {segmentDurationSeconds : Option UInt32}
    (hfits : Fits backend source segmentDurationSeconds) :
    signatureAtOnce backend fuel source segmentDurationSeconds = .running ∨
      ∃ result, signatureAtOnce backend fuel source segmentDurationSeconds = .returned result ∧
        ∀ signature, result = .ok signature →
          Signed backend source segmentDurationSeconds signature := by
  rw [signatureAtOnce]
  cases hheard : hearAll backend.codecs (backend.probe source) with
  | error error => exact Or.inr ⟨.error (.decoding error), rfl, by rintro _ ⟨⟩⟩
  | ok heard =>
    simp only [samplesAtOnce]
    cases hr : backend.sincResampler heard.rate with
    | error error => exact Or.inr ⟨.error (.resampling error), rfl, by rintro _ ⟨⟩⟩
    | ok r =>
      cases hfailure : heard.failure with
      | some failure =>
        simp only
        cases consume r r.start [] heard.frames with
        | error error => exact Or.inr ⟨.error (.resampling error), rfl, by rintro _ ⟨⟩⟩
        | ok consumed => exact Or.inr ⟨.error (.decoding failure), rfl, by rintro _ ⟨⟩⟩
      | none =>
        simp only
        cases hclip : wholeClip r fuel heard.frames with
        | none => exact Or.inl rfl
        | some clip => exact Or.inr (fingerprint_clip backend hfits hheard hfailure hr hclip)

omit [LinearOrder β] [F64 β] in
theorem fingerprint_ends (backend : Backend A P δ α σ β E) (segmentDurationSeconds : Option UInt32)
    (rawPcmSamples : Except (Failure E) (List Int16)) :
    fingerprint backend segmentDurationSeconds (some rawPcmSamples) ≠ .running := by
  cases rawPcmSamples with
  | error failure => rintro ⟨⟩
  | ok samples =>
    rw [fingerprint]
    generalize Segment.makeSignature backend.width backend.overflow backend.fft samples
      segmentDurationSeconds = made
    cases made with
    | none => rintro ⟨⟩
    | some signature => rintro ⟨⟩

/-- With a resampler that sees silence through, the worker ends on every source. -/
theorem signatureAtOnce_returns (backend : Backend A P δ α σ β E)
    (hproduces : ∀ rate r, backend.sincResampler rate = .ok r → EventuallyProduces r)
    (source : MediaSource) (segmentDurationSeconds : Option UInt32) :
    ∃ enough outcome, outcome ≠ .running ∧ ∀ fuel ≥ enough,
      signatureAtOnce backend fuel source segmentDurationSeconds = outcome := by
  unfold signatureAtOnce
  cases hearAll backend.codecs (backend.probe source) with
  | error error => exact ⟨0, .returned (.error (.decoding error)), by rintro ⟨⟩, fun _ _ => rfl⟩
  | ok heard =>
    simp only [samplesAtOnce]
    cases hr : backend.sincResampler heard.rate with
    | error error =>
      exact ⟨0, .returned (.error (.resampling error)), by rintro ⟨⟩, fun _ _ => rfl⟩
    | ok r =>
      cases heard.failure with
      | some failure =>
        simp only
        cases consume r r.start [] heard.frames with
        | error error =>
          exact ⟨0, .returned (.error (.resampling error)), by rintro ⟨⟩, fun _ _ => rfl⟩
        | ok consumed =>
          exact ⟨0, .returned (.error (.decoding failure)), by rintro ⟨⟩, fun _ _ => rfl⟩
      | none =>
        obtain ⟨enough, clip, hclip⟩ :=
          wholeClip_terminates r (hproduces heard.rate r hr) heard.frames
        refine ⟨enough, fingerprint backend segmentDurationSeconds
          ((some clip).map (Except.mapError .resampling)), ?_, fun fuel hfuel => ?_⟩
        · exact fingerprint_ends backend segmentDurationSeconds _
        · simp only [hclip fuel hfuel]

/-- With a resampler that sees silence through, the worker returns on every source that fits:
an error, or a signature of what is heard, the same with any fuel that is enough. -/
theorem makeSignature_returns (backend : Backend A P δ ℝ σ β E)
    (hproduces : ∀ rate r, backend.sincResampler rate = .ok r → EventuallyProduces r)
    (segmentDurationSeconds : Option UInt32) (source : MediaSource)
    (hfits : Fits backend source segmentDurationSeconds) :
    ∃ enough result, (∀ fuel ≥ enough,
        makeSignatureFrom backend fuel source segmentDurationSeconds = .returned result) ∧
      ∀ signature, result = .ok signature →
        Signed backend source segmentDurationSeconds signature := by
  simp only [makeSignatureFrom_eq]
  obtain ⟨enough, outcome, hends, hreturns⟩ :=
    signatureAtOnce_returns backend hproduces source segmentDurationSeconds
  rcases signatureAtOnce_sound backend enough hfits with hrunning | ⟨result, hresult, hsigned⟩
  · exact absurd ((hreturns enough le_rfl).symm.trans hrunning) hends
  · obtain rfl : outcome = .returned result := (hreturns enough le_rfl).symm.trans hresult
    exact ⟨enough, result, hreturns, hsigned⟩

end Returns

section Plain

open EmptyStream

def bothLinks : Link Unit (Option (UInt32 × List ℝ)) where
  tracks := [⟨7, some (.audio ())⟩]
  packets :=
    [⟨7, some (48000, [0, 1])⟩, ⟨7, some (48000, [1])⟩, ⟨8, none⟩, ⟨7, some (48000, [1, 1])⟩]

/-- A byte in memory is probed as the chain of two links, anything else as the one link. -/
noncomputable def plainBackend :
    Backend Unit (Option (UInt32 × List ℝ)) Unit ℝ Nat Rat Unit where
  width := .w64
  overflow := .panics
  probe source :=
    match source with
    | .cursor [_] => .ok (chain firstLink [secondLink])
    | _ => .ok bothLinks.reader
  codecs := plainCodecs
  sincResampler := sincResampler
  fft := Communication.silentFft

theorem chunks_plain :
    firstLink.chunks plainCodecs = [(monoSpec 48000, [0, 1]), (monoSpec 48000, [1])] ∧
      secondLink.chunks plainCodecs = [(monoSpec 48000, [1, 1])] ∧
      bothLinks.chunks plainCodecs =
        [(monoSpec 48000, [0, 1]), (monoSpec 48000, [1]), (monoSpec 48000, [1, 1])] := by
  refine ⟨?_, ?_, ?_⟩
  · change [chunkOf ⟨monoSpec 48000, [0, 1], one_dvd _⟩,
      chunkOf ⟨monoSpec 48000, [1], one_dvd _⟩] = _
    rw [chunkOf_mono, chunkOf_mono]
  · change [chunkOf ⟨monoSpec 48000, [1, 1], one_dvd _⟩] = _
    rw [chunkOf_mono]
  · change [chunkOf ⟨monoSpec 48000, [0, 1], one_dvd _⟩,
      chunkOf ⟨monoSpec 48000, [1], one_dvd _⟩, chunkOf ⟨monoSpec 48000, [1, 1], one_dvd _⟩] = _
    rw [chunkOf_mono, chunkOf_mono, chunkOf_mono]

theorem plays_plain : ∀ link ∈ [bothLinks, firstLink, secondLink], link.Plays plainCodecs := by
  have hitems : ∃ a b c : List ℝ,
      bothLinks.items plainCodecs = [.decoded (monoSpec 48000, a), .decoded (monoSpec 48000, b),
        .skipped, .decoded (monoSpec 48000, c)] ∧
      firstLink.items plainCodecs =
        [.decoded (monoSpec 48000, a), .decoded (monoSpec 48000, b)] ∧
      secondLink.items plainCodecs = [.skipped, .decoded (monoSpec 48000, c)] :=
    ⟨_, _, _, rfl, rfl, rfl⟩
  obtain ⟨a, b, c, hboth, hfirst, hsecond⟩ := hitems
  obtain ⟨hfirst', hsecond', hboth'⟩ := chunks_plain
  simp only [List.forall_mem_cons, List.not_mem_nil, false_implies, implies_true, and_true]
  constructor
  · exact ⟨⟨⟨7, ()⟩, rfl⟩, by simp [hboth], by simp [hboth']⟩
  constructor
  · exact ⟨⟨⟨1, ()⟩, rfl⟩, by simp [hfirst], by simp [hfirst']⟩
  · exact ⟨⟨⟨2, ()⟩, rfl⟩, by simp [hsecond], by simp [hsecond']⟩

theorem chain_recognised_plain :
    makeSignatureFromBytes plainBackend 100 [0] (some 12) =
      makeSignatureFromFile plainBackend 100 (.ok [0]) (some 12) := by
  obtain ⟨hfirst, hsecond, hboth⟩ := chunks_plain
  apply chain_recognised plainBackend 100 (some 12) (.cursor [0]) (.file [0]) firstLink bothLinks
    [secondLink] (monoSpec 48000) rfl rfl plays_plain
  · simp only [List.forall_mem_cons, List.not_mem_nil, false_implies, implies_true, and_true]
    change (∀ chunk ∈ bothLinks.chunks plainCodecs, _) ∧
      (∀ chunk ∈ firstLink.chunks plainCodecs, _) ∧ ∀ chunk ∈ secondLink.chunks plainCodecs, _
    simp [hfirst, hsecond, hboth]
  · change (bothLinks.chunks plainCodecs).flatMap Prod.snd =
      [firstLink, secondLink].flatMap fun link => (link.chunks plainCodecs).flatMap Prod.snd
    simp [hfirst, hsecond, hboth]

theorem sincResampler_produces (rate : UInt32) (r : Resampler Nat ℝ Rat Unit)
    (h : sincResampler rate = .ok r) : EventuallyProduces r := by
  rw [sincResampler] at h
  split at h
  · cases h
    exact decimator_produces
  · cases h

/-- Twelve seconds of anything fit a 64-bit build. -/
theorem plainBackend_fits (source : MediaSource) : Fits plainBackend source (some 12) := by
  intro heard r _ _
  have hwanted : wanted (some 12) = 192000 := by decide
  rw [hwanted]
  constructor
  · exact Nat.min_le_left _ _
  · omega

theorem bothLinks_heard :
    hearAll plainCodecs (.ok bothLinks.reader) = .ok ⟨48000, [0, 1, 1, 1, 1], none⟩ := by
  obtain ⟨-, -, hboth⟩ := chunks_plain
  have hplays : ∀ link ∈ [bothLinks], link.Plays plainCodecs := fun link hlink =>
    plays_plain link (List.mem_cons.mpr (Or.inl (List.mem_singleton.mp hlink)))
  have hheard := hearAll_chain plainCodecs bothLinks [] hplays (monoSpec 48000)
    (List.forall_mem_singleton.mpr (by simp [hboth]))
  rw [List.flatMap_singleton, hboth] at hheard
  exact hheard

/-- A few frames come out of the decimator in one call. -/
theorem decimator_clip (fuel : Nat) (frames : List ℝ) (hne : frames ≠ [])
    (hfew : frames.length ≤ 300) :
    ∃ samples, wholeClip decimator (fuel + 1) frames = some (.ok samples) := by
  have hconsume := consume_small decimator decimator.start [] frames (by rw [chunkFrames]; omega)
  have hcount : clipLength decimator frames.length ≤ 100 := by
    have hceil : ⌈(1 / 3 : Rat) * frames.length⌉ ≤ 100 := by
      rw [Int.ceil_le]
      have hcast : (frames.length : Rat) ≤ 300 := by exact_mod_cast hfew
      push_cast
      linarith
    change min (2 ^ 64 - 1) ⌈(1 / 3 : Rat) * frames.length⌉.toNat ≤ 100
    omega
  obtain ⟨produced, hcall, hlength⟩ : ∃ produced, decimator.processIntoBuffer decimator.start frames
      (some frames.length) = .ok (chunkFrames, frames.length, produced) ∧ produced.length = 342 :=
    ⟨_, rfl, by rw [List.length_map, List.length_range]; rfl⟩
  have hrest : consumeRest decimator decimator.start [] frames = .ok (chunkFrames, produced) := by
    rw [consumeRest, if_pos hne, hcall]
    rfl
  have hdelay : decimator.outputDelay = 42 := rfl
  rw [wholeClip_eq, ← clipLength_eq, hconsume]
  simp only [Except.bind, hrest]
  rw [pump, if_neg (by omega)]
  exact ⟨_, rfl⟩

/-- The file has a signature. -/
theorem makeSignature_returns_plain : ∃ enough signature,
    (∀ fuel ≥ enough, makeSignatureFromFile plainBackend fuel (.ok [0]) (some 12) =
      .returned (.ok signature)) ∧ Signed plainBackend (.file [0]) (some 12) signature := by
  obtain ⟨enough, result, hreturns, hsigned⟩ := makeSignature_returns plainBackend
    sincResampler_produces (some 12) (.file [0]) (plainBackend_fits _)
  obtain ⟨samples, hclip⟩ := decimator_clip enough [0, 1, 1, 1, 1] (by simp) (by simp)
  have hheard : hearAll plainBackend.codecs (plainBackend.probe (.file [0])) =
      .ok ⟨48000, [0, 1, 1, 1, 1], none⟩ := bothLinks_heard
  have hr : plainBackend.sincResampler 48000 = .ok decimator := rfl
  have hsamples : samplesAtOnce plainBackend.sincResampler (enough + 1)
      ⟨48000, [0, 1, 1, 1, 1], none⟩ = some (.ok samples) := by
    rw [samplesAtOnce, hr]
    simp only [hclip]
    rfl
  obtain ⟨hwidth, hshort⟩ := plainBackend_fits (.file [0]) _ _ hheard hr
  rw [← wholeClip_length decimator _ _ samples hclip] at hwidth hshort
  obtain ⟨slice, signature, hsignature, -⟩ :=
    fingerprint_returns plainBackend samples (some 12) hwidth hshort
  have hmade : makeSignatureFrom plainBackend (enough + 1) (.file [0]) (some 12) =
      .returned (.ok signature) := by
    rw [makeSignatureFrom_eq, signatureAtOnce, hheard]
    simp only [hsamples, hsignature]
  have hresult := (hreturns (enough + 1) (Nat.le_succ _)).symm.trans hmade
  obtain rfl : result = .ok signature := Outcome.returned.inj hresult
  exact ⟨enough, signature, hreturns, hsigned signature rfl⟩

end Plain

end Recognition
