import Mathlib
import ShazamioCore.DecodeScript

/-!
# Chunks of one spec

The chunks a mono decoder hands out until it stops: those its packets decode to, the one
read ahead among them once, up to the first of another spec than theirs.
-/
namespace MonoStream

open Decode DecodeScript

variable {A P δ α : Type} [LinearOrder α] [F32 α]

/-- What is left to read: the events, and the chunk read ahead. -/
def left (self : MonoDecoder A P δ α) : Nat :=
  self.packets.format.events.length + self.firstChunk.toList.length

theorem nextChunk_first (codecs : CodecRegistry A P δ α) (packets : PacketDecoder A P δ α)
    (spec : AudioSpec) (firstChunk monoFrames : List α) :
    MonoDecoder.nextChunk codecs ⟨packets, spec, some firstChunk⟩ monoFrames =
      .ok (true, ⟨packets, spec, none⟩, firstChunk) := rfl

theorem nextChunk_later (codecs : CodecRegistry A P δ α) (packets : PacketDecoder A P δ α)
    (spec : AudioSpec) (monoFrames : List α) :
    MonoDecoder.nextChunk codecs ⟨packets, spec, none⟩ monoFrames =
      match next codecs packets monoFrames with
      | .error error => .error error
      | .ok (none, packets, monoFrames) => .ok (false, ⟨packets, spec, none⟩, monoFrames)
      | .ok (some spec', packets, monoFrames) =>
        if spec' ≠ spec then .error (.unsupported "the stream changes format part-way through")
        else .ok (true, ⟨packets, spec, none⟩, monoFrames) := by
  rw [MonoDecoder.nextChunk]
  simp only
  cases next codecs packets monoFrames with
  | error error => rfl
  | ok result =>
    obtain ⟨spec', packets', monoFrames'⟩ := result
    cases spec' with
    | none => rfl
    | some spec' => rfl

theorem nextChunk_shrinks {codecs : CodecRegistry A P δ α} {self self' : MonoDecoder A P δ α}
    {monoFrames monoFrames' : List α}
    (h : self.nextChunk codecs monoFrames = .ok (true, self', monoFrames')) :
    left self' < left self := by
  obtain ⟨packets, spec, firstChunk⟩ := self
  cases firstChunk with
  | some firstChunk =>
    cases h
    simp [left]
  | none =>
    rw [nextChunk_later] at h
    split at h
    · cases h
    · cases h
    · rename_i hnext
      split at h
      · cases h
      · cases h
        exact Nat.add_lt_add_right (nextFrames_shrinks hnext) _

/-- The loop of `pcm_samples`: chunks until there is none, or an error. -/
def nextChunks (codecs : CodecRegistry A P δ α) (self : MonoDecoder A P δ α)
    (monoFrames : List α) : List (List α) × Option Error :=
  match _h : self.nextChunk codecs monoFrames with
  | .error error => ([], some error)
  | .ok (false, _, _) => ([], none)
  | .ok (true, self, monoFrames) =>
    let (chunks, failure) := nextChunks codecs self monoFrames
    (monoFrames :: chunks, failure)
termination_by left self
decreasing_by exact nextChunk_shrinks _h

/-- Chunks up to the first of another spec, which is refused. -/
def ofSpec (spec : AudioSpec) :
    List (AudioSpec × List α) → Option Error → List (List α) × Option Error
  | [], failure => ([], failure)
  | chunk :: chunks, failure =>
    if chunk.1 ≠ spec then
      ([], some (.unsupported "the stream changes format part-way through"))
    else (chunk.2 :: (ofSpec spec chunks failure).1, (ofSpec spec chunks failure).2)

section Spec

variable (spec : AudioSpec) (chunks : List (AudioSpec × List α)) (failure : Option Error)

omit [LinearOrder α] [F32 α]

theorem ofSpec_same (h : ∀ chunk ∈ chunks, chunk.1 = spec) :
    ofSpec spec chunks failure = (chunks.map Prod.snd, failure) := by
  induction chunks with
  | nil => rfl
  | cons chunk chunks ih =>
    obtain ⟨hchunk, hchunks⟩ := List.forall_mem_cons.mp h
    rw [ofSpec, if_neg (not_not.mpr hchunk), ih hchunks]
    rfl

theorem ofSpec_differs (h : ¬∀ chunk ∈ chunks, chunk.1 = spec) :
    ∃ front chunk back, chunks = front ++ chunk :: back ∧ (∀ chunk ∈ front, chunk.1 = spec) ∧
      chunk.1 ≠ spec ∧ ofSpec spec chunks failure =
        (front.map Prod.snd,
          some (.unsupported "the stream changes format part-way through")) := by
  induction chunks with
  | nil => exact absurd (fun _ hmem => absurd hmem List.not_mem_nil) h
  | cons chunk chunks ih =>
    by_cases hchunk : chunk.1 = spec
    · have hchunks : ¬∀ chunk ∈ chunks, chunk.1 = spec := fun hall =>
        h (List.forall_mem_cons.mpr ⟨hchunk, hall⟩)
      obtain ⟨front, differing, back, rfl, hfront, hdiffers, hrun⟩ := ih hchunks
      refine ⟨chunk :: front, differing, back, rfl, List.forall_mem_cons.mpr ⟨hchunk, hfront⟩,
        hdiffers, ?_⟩
      rw [ofSpec, if_neg (not_not.mpr hchunk), hrun]
      rfl
    · exact ⟨[], chunk, chunks, rfl, by simp, hchunk, by rw [ofSpec, if_pos hchunk]; rfl⟩

/-- No error means that every chunk was of the one spec. -/
theorem ofSpec_none (frames : List (List α)) :
    ofSpec spec chunks failure = (frames, none) ↔
      failure = none ∧ (∀ chunk ∈ chunks, chunk.1 = spec) ∧ frames = chunks.map Prod.snd := by
  by_cases hsame : ∀ chunk ∈ chunks, chunk.1 = spec
  · rw [ofSpec_same _ _ _ hsame, Prod.mk.injEq]
    constructor
    · rintro ⟨rfl, rfl⟩
      exact ⟨rfl, hsame, rfl⟩
    · rintro ⟨rfl, -, rfl⟩
      exact ⟨rfl, rfl⟩
  · obtain ⟨front, chunk, back, -, -, -, hrun⟩ := ofSpec_differs spec chunks failure hsame
    rw [hrun]
    exact iff_of_false (by simp) fun h => hsame h.2.1

end Spec

section Run

variable (codecs : CodecRegistry A P δ α)

theorem nextChunks_eq (self : MonoDecoder A P δ α) (monoFrames : List α) :
    nextChunks codecs self monoFrames =
      match self.nextChunk codecs monoFrames with
      | .error error => ([], some error)
      | .ok (false, _, _) => ([], none)
      | .ok (true, self, monoFrames) =>
        (monoFrames :: (nextChunks codecs self monoFrames).1,
          (nextChunks codecs self monoFrames).2) := by
  rw [nextChunks]
  split <;> rename_i h <;> rw [h]

/-- Behind the chunk read ahead come those of its spec. -/
theorem nextChunks_later (packets : PacketDecoder A P δ α) (spec : AudioSpec)
    (monoFrames : List α) :
    nextChunks codecs ⟨packets, spec, none⟩ monoFrames =
      ofSpec spec (decodeAll codecs packets monoFrames).1
        (decodeAll codecs packets monoFrames).2 := by
  rw [nextChunks_eq, nextChunk_later, decodeAll_eq, next]
  cases hnext : nextFrames codecs packets [] with
  | error error => rfl
  | ok result =>
    obtain ⟨spec', packets', monoFrames'⟩ := result
    cases spec' with
    | none => rfl
    | some spec' =>
      have hrest := nextChunks_later packets' spec monoFrames'
      by_cases hspec : spec' ≠ spec
      · simp [ofSpec, hspec]
      · simp [ofSpec, hspec, hrest]
termination_by packets.format.events.length
decreasing_by exact nextFrames_shrinks hnext

def decodeMono (probed : Except Error (FormatReader A P)) : List (List α) × Option Error :=
  match MonoDecoder.new codecs probed with
  | .error error => ([], some error)
  | .ok decoder => nextChunks codecs decoder []

theorem new_probed (format : FormatReader A P) (trackDecoder : TrackDecoder δ)
    (hbuilt : decoderFor codecs format.tracks = .ok trackDecoder) :
    MonoDecoder.new codecs (.ok format) =
      match nextFrames codecs ⟨format, trackDecoder, []⟩ [] with
      | .error error => .error error
      | .ok (none, _, _) => .error (.decodeError "the stream carries no decodable audio")
      | .ok (some spec, packets, firstChunk) => .ok ⟨packets, spec, some firstChunk⟩ := by
  have hformat : fromFormat codecs format = .ok ⟨format, trackDecoder, []⟩ := by
    rw [fromFormat, hbuilt]
    rfl
  change (fromFormat codecs format).bind _ = _
  rw [hformat]
  change (nextFrames codecs ⟨format, trackDecoder, []⟩ []).bind _ = _
  cases nextFrames codecs ⟨format, trackDecoder, []⟩ [] with
  | error error => rfl
  | ok result =>
    obtain ⟨spec, packets, firstChunk⟩ := result
    cases spec with
    | none => rfl
    | some spec => rfl

theorem new_unbuilt (format : FormatReader A P) (error : Error)
    (hbuilt : decoderFor codecs format.tracks = .error error) :
    MonoDecoder.new codecs (.ok format) = .error error := by
  have hformat : fromFormat codecs format = .error error := by
    rw [fromFormat, hbuilt]
    rfl
  change (fromFormat codecs format).bind _ = _
  rw [hformat]
  rfl

/-- A stream opens if its first packet decodes, and then hands out what its packets decode
to, up to another spec than the first. -/
theorem new_chunks (format : FormatReader A P) (trackDecoder : TrackDecoder δ)
    (hbuilt : decoderFor codecs format.tracks = .ok trackDecoder) :
    match decodeAll codecs ⟨format, trackDecoder, []⟩ [] with
    | ([], failure) => MonoDecoder.new codecs (.ok format) =
        .error (failure.getD (.decodeError "the stream carries no decodable audio"))
    | (chunk :: chunks, failure) => ∃ decoder, MonoDecoder.new codecs (.ok format) = .ok decoder ∧
        decoder.spec = chunk.1 ∧
        nextChunks codecs decoder [] = ofSpec chunk.1 (chunk :: chunks) failure := by
  rw [new_probed codecs format trackDecoder hbuilt, decodeAll_eq]
  cases nextFrames codecs ⟨format, trackDecoder, []⟩ [] with
  | error error => rfl
  | ok result =>
    obtain ⟨spec, packets, firstChunk⟩ := result
    cases spec with
    | none => rfl
    | some spec =>
      refine ⟨⟨packets, spec, some firstChunk⟩, rfl, rfl, ?_⟩
      rw [nextChunks_eq, nextChunk_first]
      simp only [nextChunks_later, ofSpec, ne_eq, not_true_eq_false, if_false]

theorem decodeMono_eq (format : FormatReader A P) (trackDecoder : TrackDecoder δ)
    (hbuilt : decoderFor codecs format.tracks = .ok trackDecoder) :
    decodeMono codecs (.ok format) =
      match decodeAll codecs ⟨format, trackDecoder, []⟩ [] with
      | ([], failure) =>
        ([], some (failure.getD (.decodeError "the stream carries no decodable audio")))
      | (chunk :: chunks, failure) => ofSpec chunk.1 (chunk :: chunks) failure := by
  have hnew := new_chunks codecs format trackDecoder hbuilt
  rw [decodeMono]
  split at hnew
  · rw [hnew]
  · obtain ⟨decoder, hnew, -, hrun⟩ := hnew
    rw [hnew]
    exact hrun

/-- What opens has a reader, a decoder for its tracks and a first packet. -/
theorem new_eq_ok {probed : Except Error (FormatReader A P)} {decoder : MonoDecoder A P δ α}
    (h : MonoDecoder.new codecs probed = .ok decoder) :
    ∃ format trackDecoder chunk chunks failure, probed = .ok format ∧
      decoderFor codecs format.tracks = .ok trackDecoder ∧
      decodeAll codecs ⟨format, trackDecoder, []⟩ [] = (chunk :: chunks, failure) ∧
      decoder.spec = chunk.1 ∧
      nextChunks codecs decoder [] = ofSpec chunk.1 (chunk :: chunks) failure := by
  cases probed with
  | error error =>
    cases error <;> cases h
  | ok format =>
    cases hbuilt : decoderFor codecs format.tracks with
    | error error =>
      rw [new_unbuilt codecs format error hbuilt] at h
      cases h
    | ok trackDecoder =>
      have hnew := new_chunks codecs format trackDecoder hbuilt
      split at hnew
      · rw [hnew] at h
        cases h
      · rename_i chunk chunks failure hall
        obtain ⟨decoder', hnew, hspec, hrun⟩ := hnew
        rw [hnew] at h
        cases h
        exact ⟨format, trackDecoder, chunk, chunks, failure, rfl, hbuilt, hall, hspec, hrun⟩

end Run

end MonoStream
