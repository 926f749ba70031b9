import Mathlib
import ShazamioCore.CutShort
import ShazamioCore.MonoStream

/-!
# Chained streams

Links follow one another in one stream, a reset between two of them. Read through, they
decode to what each decodes to alone, put together, or the stream is refused at the first
packet of another spec.
-/
namespace ChainedStream

open Decode DecodeScript CutShort MonoStream

variable {A P δ α : Type}

structure Link (A P : Type) where
  tracks : List (Track A)
  packets : List (Packet P)

def Link.events (link : Link A P) : List (Event A P) := link.packets.map .packet

def Link.reader (link : Link A P) : FormatReader A P :=
  ⟨link.tracks, link.events ++ [.endOfStream]⟩

/-- The links that follow, a reset before each. -/
def following (links : List (Link A P)) : List (Event A P) :=
  links.flatMap fun link => .resetRequired link.tracks :: link.events

def chain (first : Link A P) (links : List (Link A P)) : FormatReader A P :=
  ⟨first.tracks, first.events ++ (following links ++ [.endOfStream])⟩

variable [LinearOrder α] [F32 α]

/-- What becomes of the packets of a link, decoded by a fresh decoder. -/
def Link.items (codecs : CodecRegistry A P δ α) (link : Link A P) : List (Item α) :=
  match decoderFor codecs link.tracks with
  | .error _ => []
  | .ok trackDecoder => (script codecs trackDecoder link.events).1

def Link.chunks (codecs : CodecRegistry A P δ α) (link : Link A P) :
    List (AudioSpec × List α) :=
  chunksOf (link.items codecs)

/-- A decoder is built for the link and decodes its packets, at least one of the track it
has selected. -/
structure Link.Plays (codecs : CodecRegistry A P δ α) (link : Link A P) : Prop where
  built : ∃ trackDecoder, decoderFor codecs link.tracks = .ok trackDecoder
  error_free : ∀ error, Item.failed error ∉ link.items codecs
  nonempty : link.chunks codecs ≠ []

theorem Link.items_eq (codecs : CodecRegistry A P δ α) (link : Link A P)
    {trackDecoder : TrackDecoder δ} (h : decoderFor codecs link.tracks = .ok trackDecoder) :
    link.items codecs = (script codecs trackDecoder link.events).1 := by
  rw [Link.items, h]

/-- Packets before other events, with the decoder they leave behind. -/
theorem script_packets (codecs : CodecRegistry A P δ α) (trackDecoder : TrackDecoder δ)
    (packets : List (Packet P)) (events : List (Event A P)) :
    ∃ trackDecoder', script codecs trackDecoder (packets.map .packet ++ events) =
      ((script codecs trackDecoder (packets.map .packet)).1 ++
        (script codecs trackDecoder' events).1, (script codecs trackDecoder' events).2) := by
  induction packets generalizing trackDecoder with
  | nil => exact ⟨trackDecoder, rfl⟩
  | cons packet packets ih =>
    rw [List.map_cons, List.cons_append]
    by_cases htrack : packet.trackId = trackDecoder.trackId
    · cases hdecode : codecs.decode trackDecoder.decoder packet.data with
      | mk decoder result =>
        obtain ⟨trackDecoder', h⟩ := ih { trackDecoder with decoder := decoder }
        rw [script_packet codecs _ htrack hdecode, script_packet codecs _ htrack hdecode, h]
        exact ⟨trackDecoder', rfl⟩
    · obtain ⟨trackDecoder', h⟩ := ih trackDecoder
      rw [script_skipped codecs _ htrack, script_skipped codecs _ htrack, h]
      exact ⟨trackDecoder', rfl⟩

theorem script_following (codecs : CodecRegistry A P δ α) (trackDecoder : TrackDecoder δ)
    (links : List (Link A P)) (h : ∀ link ∈ links, link.Plays codecs) :
    script codecs trackDecoder (following links ++ [.endOfStream]) =
      (links.flatMap (Link.items codecs), .ended) := by
  induction links generalizing trackDecoder with
  | nil => rfl
  | cons link links ih =>
    obtain ⟨hlink, hlinks⟩ := List.forall_mem_cons.mp h
    obtain ⟨trackDecoder', hbuilt⟩ := hlink.built
    have hsplit : following (link :: links) ++ [.endOfStream] =
        .resetRequired link.tracks :: (link.events ++ (following links ++ [.endOfStream])) := by
      simp [following]
    obtain ⟨later, hpackets⟩ := script_packets codecs trackDecoder' link.packets
      (following links ++ [.endOfStream])
    rw [hsplit, script_resetRequired codecs _ hbuilt, Link.events, hpackets, ih later hlinks,
      List.flatMap_cons, link.items_eq codecs hbuilt]
    rfl

/-- The chain decodes, packet by packet, to what its links decode to. -/
theorem decodeAll_chain (codecs : CodecRegistry A P δ α) (first : Link A P)
    (links : List (Link A P)) (h : ∀ link ∈ first :: links, link.Plays codecs)
    {trackDecoder : TrackDecoder δ} (hbuilt : decoderFor codecs first.tracks = .ok trackDecoder)
    (samples monoFrames : List α) :
    decodeAll codecs ⟨chain first links, trackDecoder, samples⟩ monoFrames =
      ((first :: links).flatMap (Link.chunks codecs), none) := by
  obtain ⟨hfirst, hlinks⟩ := List.forall_mem_cons.mp h
  obtain ⟨later, hpackets⟩ := script_packets codecs trackDecoder first.packets
    (following links ++ [.endOfStream])
  have hscript : script codecs trackDecoder (first.events ++ (following links ++ [.endOfStream])) =
      ((first :: links).flatMap (Link.items codecs), .ended) := by
    rw [Link.events, hpackets, script_following codecs later links hlinks, List.flatMap_cons,
      first.items_eq codecs hbuilt]
    rfl
  have herror_free : ∀ error, Item.failed error ∉ (first :: links).flatMap (Link.items codecs) := by
    intro error hmem
    obtain ⟨link, hlink, hitem⟩ := List.mem_flatMap.mp hmem
    exact (h link hlink).error_free error hitem
  have hchunks : (first :: links).flatMap (Link.chunks codecs) =
      chunksOf ((first :: links).flatMap (Link.items codecs)) := List.filterMap_flatMap.symm
  rw [chain, decodeAll_script, hscript, judge_ended]
  exact ⟨rfl, _, ⟨herror_free, .inl rfl⟩, hchunks⟩

theorem decodeMono_chain (codecs : CodecRegistry A P δ α) (first : Link A P)
    (links : List (Link A P)) (h : ∀ link ∈ first :: links, link.Plays codecs) :
    ∃ opening rest, (first :: links).flatMap (Link.chunks codecs) = opening :: rest ∧
      decodeMono codecs (.ok (chain first links)) = ofSpec opening.1 (opening :: rest) none := by
  have hfirst := h first List.mem_cons_self
  obtain ⟨trackDecoder, hbuilt⟩ := hfirst.built
  obtain ⟨opening, rest, hchunks⟩ := List.exists_cons_of_ne_nil hfirst.nonempty
  refine ⟨opening, rest ++ links.flatMap (Link.chunks codecs), ?_, ?_⟩
  · rw [List.flatMap_cons, hchunks]
    rfl
  · rw [decodeMono_eq codecs _ trackDecoder hbuilt,
      decodeAll_chain codecs first links h hbuilt, List.flatMap_cons, hchunks]
    rfl

/-- A link alone is a chain of one. -/
theorem decodeMono_link (codecs : CodecRegistry A P δ α) (link : Link A P)
    (h : link.Plays codecs) (spec : AudioSpec)
    (hspec : ∀ chunk ∈ link.chunks codecs, chunk.1 = spec) :
    decodeMono codecs (.ok link.reader) = ((link.chunks codecs).map Prod.snd, none) := by
  obtain ⟨opening, rest, hchunks, hrun⟩ := decodeMono_chain codecs link [] (by simpa using h)
  rw [List.flatMap_singleton] at hchunks
  rw [hchunks] at hspec ⊢
  have hopening := hspec opening List.mem_cons_self
  change decodeMono codecs (.ok (chain link [])) = _
  rw [hrun, ofSpec_same]
  intro chunk hmem
  rw [hspec chunk hmem, hopening]

/-- A chain is read as its links put together, each as it decodes alone, if all packets have
the first one's spec. Otherwise it is refused at the first packet of another, the chunks
before it handed out. -/
theorem chain_decodes (codecs : CodecRegistry A P δ α) (first : Link A P)
    (links : List (Link A P)) (h : ∀ link ∈ first :: links, link.Plays codecs) :
    ∃ opening rest, (first :: links).flatMap (Link.chunks codecs) = opening :: rest ∧
      ((∀ chunk ∈ opening :: rest, chunk.1 = opening.1) →
        (∀ link ∈ first :: links, (decodeMono codecs (.ok link.reader)).2 = none) ∧
        (decodeMono codecs (.ok (chain first links))).2 = none ∧
        (decodeMono codecs (.ok (chain first links))).1.flatten =
          (first :: links).flatMap fun link => (decodeMono codecs (.ok link.reader)).1.flatten) ∧
      ((¬∀ chunk ∈ opening :: rest, chunk.1 = opening.1) →
        ∃ front chunk back, opening :: rest = front ++ chunk :: back ∧
          (∀ chunk ∈ front, chunk.1 = opening.1) ∧ chunk.1 ≠ opening.1 ∧
          decodeMono codecs (.ok (chain first links)) = (front.map Prod.snd,
            some (.unsupported "the stream changes format part-way through"))) := by
  obtain ⟨opening, rest, hchunks, hrun⟩ := decodeMono_chain codecs first links h
  refine ⟨opening, rest, hchunks, fun hsame => ?_, fun hdiffers => ?_⟩
  · have halone : ∀ link ∈ first :: links, decodeMono codecs (.ok link.reader) =
        ((link.chunks codecs).map Prod.snd, none) := by
      intro link hlink
      refine decodeMono_link codecs link (h link hlink) opening.1 fun chunk hmem => ?_
      exact hsame chunk (hchunks ▸ List.mem_flatMap.mpr ⟨link, hlink, hmem⟩)
    refine ⟨fun link hlink => by rw [halone link hlink], ?_, ?_⟩
    · rw [hrun, ofSpec_same _ _ _ hsame]
    · rw [hrun, ofSpec_same _ _ _ hsame, ← hchunks, ← List.flatMap_def, List.flatMap_assoc]
      refine List.flatMap_congr fun link hlink => ?_
      rw [halone link hlink, List.flatMap_def]
  · rw [hrun]
    exact ofSpec_differs _ _ _ hdiffers

/-- Two links at one rate, the second with a track it does not select. -/
def firstLink : Link Unit (Option (UInt32 × List ℝ)) where
  tracks := [⟨1, some (.audio ())⟩]
  packets := [⟨1, some (48000, [0, 1])⟩, ⟨1, some (48000, [1])⟩]

def secondLink : Link Unit (Option (UInt32 × List ℝ)) where
  tracks := [⟨9, some .other⟩, ⟨2, some (.audio ())⟩]
  packets := [⟨9, none⟩, ⟨2, some (48000, [1, 1])⟩]

theorem twoLinks_decode :
    (decodeMono plainCodecs (.ok (chain firstLink [secondLink]))).2 = none ∧
      (decodeMono plainCodecs (.ok (chain firstLink [secondLink]))).1.flatten =
        [firstLink, secondLink].flatMap fun link =>
          (decodeMono plainCodecs (.ok link.reader)).1.flatten := by
  have hfirst : ∃ a b, firstLink.items plainCodecs =
      [.decoded (monoSpec 48000, a), .decoded (monoSpec 48000, b)] := ⟨_, _, rfl⟩
  have hsecond : ∃ c, secondLink.items plainCodecs =
      [.skipped, .decoded (monoSpec 48000, c)] := ⟨_, rfl⟩
  obtain ⟨a, b, hfirst⟩ := hfirst
  obtain ⟨c, hsecond⟩ := hsecond
  have hchunks : [firstLink, secondLink].flatMap (Link.chunks plainCodecs) =
      [(monoSpec 48000, a), (monoSpec 48000, b), (monoSpec 48000, c)] := by
    simp only [List.flatMap_cons, Link.chunks, hfirst, hsecond]
    rfl
  have hplays : ∀ link ∈ [firstLink, secondLink], link.Plays plainCodecs := by
    refine List.forall_mem_cons.mpr ⟨⟨⟨⟨1, ()⟩, rfl⟩, by simp [hfirst], ?_⟩,
      List.forall_mem_singleton.mpr ⟨⟨⟨2, ()⟩, rfl⟩, by simp [hsecond], ?_⟩⟩
    · simp [Link.chunks, hfirst, chunksOf, Item.chunk?]
    · simp [Link.chunks, hsecond, chunksOf_cons, Item.chunk?]
  obtain ⟨opening, rest, hopening, hsame, -⟩ :=
    chain_decodes plainCodecs firstLink [secondLink] hplays
  obtain ⟨rfl, rfl⟩ := List.cons.inj (hchunks.symm.trans hopening)
  exact (hsame (by simp)).2

end ChainedStream
