import Mathlib
import ShazamioCore.CutShort
import ShazamioCore.MonoStream
import ShazamioCore.Opus
import ShazamioCore.WholeClip

/-!
# From packets to samples

The chunks of a mono decoder are pushed into a resampler as they come. What results is the
resampled stream of the chunks put together. A stream that opens on a packet of no frames
and has no others ends as no samples at all.
-/
namespace PcmSamples

open Decode DecodeScript CutShort MonoStream Resample WholeClip

variable {A P δ α σ β E : Type} [LinearOrder α] [F32 α] [LinearOrder β] [F64 β]

inductive Failure (E : Type) where
  | decoding (error : Error)
  | resampling (error : E)

/-- The loop of `pcm_samples`. -/
def pushChunks (codecs : CodecRegistry A P δ α) (r : Resampler σ α β E)
    (decoder : MonoDecoder A P δ α) (monoFrames : List α) (resampling : Resampling σ α) :
    Except (Failure E) (Resampling σ α) :=
  match _h : decoder.nextChunk codecs monoFrames with
  | .error error => .error (.decoding error)
  | .ok (false, _, _) => .ok resampling
  | .ok (true, decoder, monoFrames) =>
    match push r resampling monoFrames with
    | .error error => .error (.resampling error)
    | .ok resampling => pushChunks codecs r decoder monoFrames resampling
termination_by left decoder
decreasing_by exact nextChunk_shrinks _h

/-- `none` is a run still going when the fuel is spent. -/
def pcmSamples (codecs : CodecRegistry A P δ α)
    (sincResampler : UInt32 → Except E (Resampler σ α β E)) (fuel : Nat)
    (decoder : MonoDecoder A P δ α) : Option (Except (Failure E) (List Int16)) :=
  match sincResampler decoder.spec.rate with
  | .error error => some (.error (.resampling error))
  | .ok r =>
    match pushChunks codecs r decoder [] (new r) with
    | .error error => some (.error error)
    | .ok resampling => (finish r fuel resampling).map (Except.mapError .resampling)

section Push

variable (codecs : CodecRegistry A P δ α) (r : Resampler σ α β E)

omit [LinearOrder β] [F64 β]

theorem pushChunks_eq (decoder : MonoDecoder A P δ α) (monoFrames : List α)
    (resampling : Resampling σ α) :
    pushChunks codecs r decoder monoFrames resampling =
      match decoder.nextChunk codecs monoFrames with
      | .error error => .error (.decoding error)
      | .ok (false, _, _) => .ok resampling
      | .ok (true, decoder, monoFrames) =>
        match push r resampling monoFrames with
        | .error error => .error (.resampling error)
        | .ok resampling => pushChunks codecs r decoder monoFrames resampling := by
  rw [pushChunks]
  split <;> rename_i h <;> rw [h]

/-- The loop gets through if the stream ends without an error and every chunk is taken. -/
theorem pushChunks_ok (decoder : MonoDecoder A P δ α) (monoFrames : List α)
    (resampling resampling' : Resampling σ α) :
    pushChunks codecs r decoder monoFrames resampling = .ok resampling' ↔
      ∃ chunks, nextChunks codecs decoder monoFrames = (chunks, none) ∧
        chunks.foldlM (push r) resampling = .ok resampling' := by
  rw [pushChunks_eq, nextChunks_eq]
  cases hchunk : decoder.nextChunk codecs monoFrames with
  | error error => simp
  | ok result =>
    obtain ⟨more, decoder', monoFrames'⟩ := result
    cases more with
    | false => simp [pure, Except.pure]
    | true =>
      simp only
      cases hpush : push r resampling monoFrames' with
      | error error =>
        constructor
        · rintro ⟨⟩
        · rintro ⟨chunks, hchunks, hfold⟩
          obtain ⟨rfl, -⟩ := Prod.mk.inj hchunks
          rw [List.foldlM_cons, hpush] at hfold
          cases hfold
      | ok pushed =>
        rw [pushChunks_ok decoder' monoFrames' pushed resampling']
        constructor
        · rintro ⟨chunks, hchunks, hfold⟩
          refine ⟨monoFrames' :: chunks, by rw [hchunks], ?_⟩
          rw [List.foldlM_cons, hpush]
          exact hfold
        · rintro ⟨chunks, hchunks, hfold⟩
          obtain ⟨rfl, hnone⟩ := Prod.mk.inj hchunks
          rw [List.foldlM_cons, hpush] at hfold
          exact ⟨_, Prod.ext rfl hnone, hfold⟩
termination_by left decoder
decreasing_by exact nextChunk_shrinks hchunk

end Push

theorem resample_ok (r : Resampler σ α β E) (fuel : Nat) (pieces : List (List α))
    (samples : List Int16) :
    resample r fuel pieces = some (.ok samples) ↔
      ∃ resampling, pieces.foldlM (push r) (new r) = .ok resampling ∧
        finish r fuel resampling = some (.ok samples) := by
  rw [resample]
  cases pieces.foldlM (push r) (new r) with
  | error e => simp
  | ok resampling => simp

theorem mapError_ok (result : Option (Except E (List Int16))) (samples : List Int16) :
    result.map (Except.mapError Failure.resampling) = some (.ok samples) ↔
      result = some (.ok samples) := by
  cases result with
  | none => simp
  | some result =>
    cases result with
    | error e => simp [Except.mapError]
    | ok samples' => simp [Except.mapError]

/-- Samples result exactly from a stream that ends without an error, resampled whole. -/
theorem pcmSamples_ok (codecs : CodecRegistry A P δ α)
    (sincResampler : UInt32 → Except E (Resampler σ α β E)) (fuel : Nat)
    (decoder : MonoDecoder A P δ α) (samples : List Int16) :
    pcmSamples codecs sincResampler fuel decoder = some (.ok samples) ↔
      ∃ r chunks, sincResampler decoder.spec.rate = .ok r ∧
        nextChunks codecs decoder [] = (chunks, none) ∧
        wholeClip r fuel chunks.flatten = some (.ok samples) := by
  rw [pcmSamples]
  cases sincResampler decoder.spec.rate with
  | error error => simp
  | ok r =>
    simp only [← resample_eq_wholeClip, resample_ok, Except.ok.injEq, exists_and_left,
      exists_eq_left']
    constructor
    · intro h
      split at h
      · cases h
      · rename_i resampling hpush
        obtain ⟨chunks, hchunks, hfold⟩ := (pushChunks_ok codecs r decoder [] _ _).mp hpush
        exact ⟨chunks, hchunks, resampling, hfold, (mapError_ok _ samples).mp h⟩
    · rintro ⟨chunks, hchunks, resampling, hfold, hfinish⟩
      rw [(pushChunks_ok codecs r decoder [] _ _).mpr ⟨chunks, hchunks, hfold⟩]
      exact (mapError_ok _ samples).mpr hfinish

end PcmSamples
