import Mathlib
import ShazamioCore.LongerAudio
import ShazamioCore.RealTransform
import ShazamioCore.Recognition

/-!
# A recording that stops early

A stream that breaks off within a packet, or between two, is heard as the whole one up to there.
What the resampler makes of the chunks it has whole is the same, and so are the landmarks that
no later sample can change.
-/
namespace ShortenedStream

open Decode DecodeScript CutShort MonoStream Resample WholeClip Recognition

variable {A P δ α : Type}

section Cut

variable (codecs : CodecRegistry A P δ α)

/-- The decoder of a track, once a packet has come by. -/
def fed (trackDecoder : TrackDecoder δ) (packet : Packet P) : TrackDecoder δ :=
  if packet.trackId = trackDecoder.trackId then
    { trackDecoder with decoder := (codecs.decode trackDecoder.decoder packet.data).1 }
  else trackDecoder

/-- The decoder that reading these events comes to, if they do not stop it. -/
def decoderAfter : TrackDecoder δ → List (Event A P) → Option (TrackDecoder δ)
  | trackDecoder, [] => some trackDecoder
  | trackDecoder, .packet packet :: events => decoderAfter (fed codecs trackDecoder packet) events
  | _, .resetRequired tracks :: events =>
    match decoderFor codecs tracks with
    | .error _ => none
    | .ok trackDecoder => decoderAfter trackDecoder events
  | _, .endOfStream :: _ => none
  | _, .error _ _ :: _ => none

/-- What a reader yields where the bytes give out: nothing more, an error for them, or a packet
cut short, that runs out under the decoder it comes to. -/
inductive BreaksOff (tracks : List (Track A)) (before : List (Event A P)) :
    List (Event A P) → Prop where
  | atEnd : BreaksOff tracks before []
  | unread (h : Error.ioError .unexpectedEof ≠ .resetRequired) :
      BreaksOff tracks before [.error (.ioError .unexpectedEof) h]
  | within (packet : Packet P)
      (h : ∀ trackDecoder reached, decoderFor codecs tracks = .ok trackDecoder →
        decoderAfter codecs trackDecoder before = some reached →
        packet.trackId = reached.trackId →
        ∃ decoder kind, codecs.decode reached.decoder packet.data =
          (decoder, .error (.ioError kind))) :
      BreaksOff tracks before [.packet packet]

end Cut

section Script

variable [LinearOrder α] [F32 α] (codecs : CodecRegistry A P δ α)

/-- A packet makes one item, whatever follows. -/
theorem script_item (trackDecoder : TrackDecoder δ) (packet : Packet P) :
    ∃ item, ∀ events, script codecs trackDecoder (.packet packet :: events) =
      (item :: (script codecs (fed codecs trackDecoder packet) events).1,
        (script codecs (fed codecs trackDecoder packet) events).2) := by
  by_cases htrack : packet.trackId = trackDecoder.trackId
  · cases hdecode : codecs.decode trackDecoder.decoder packet.data with
    | mk decoder result =>
      refine ⟨itemOf result, fun events => ?_⟩
      rw [script_packet codecs events htrack hdecode, fed, if_pos htrack, hdecode]
  · refine ⟨.skipped, fun events => ?_⟩
    rw [script_skipped codecs events htrack, fed, if_neg htrack]

/-- A script goes on after the events it starts with, or has stopped within them. -/
theorem script_front (trackDecoder : TrackDecoder δ) (before : List (Event A P)) :
    ∃ front, (∃ reached, decoderAfter codecs trackDecoder before = some reached ∧
        ∀ rest, script codecs trackDecoder (before ++ rest) =
          (front ++ (script codecs reached rest).1, (script codecs reached rest).2)) ∨
      ∃ stop, ∀ rest, script codecs trackDecoder (before ++ rest) = (front, stop) := by
  induction before generalizing trackDecoder with
  | nil => exact ⟨[], .inl ⟨trackDecoder, rfl, fun _ => rfl⟩⟩
  | cons event before ih =>
    cases event with
    | packet packet =>
      obtain ⟨item, hitem⟩ := script_item codecs trackDecoder packet
      obtain ⟨front, h⟩ := ih (fed codecs trackDecoder packet)
      refine ⟨item :: front, h.imp (Exists.imp fun _ hon => ⟨hon.1, fun rest => ?_⟩)
        (Exists.imp fun _ hstopped rest => ?_)⟩
      · rw [List.cons_append, hitem, hon.2, List.cons_append]
      · rw [List.cons_append, hitem, hstopped]
    | resetRequired tracks =>
      cases hbuilt : decoderFor codecs tracks with
      | error error =>
        refine ⟨[], .inr ⟨.refused error, fun rest => ?_⟩⟩
        rw [List.cons_append, script, hbuilt]
      | ok trackDecoder' =>
        obtain ⟨front, h⟩ := ih trackDecoder'
        refine ⟨front, h.imp (Exists.imp fun _ hon => ⟨?_, fun rest => ?_⟩)
          (Exists.imp fun _ hstopped rest => ?_)⟩
        · rw [decoderAfter, hbuilt]
          exact hon.1
        · rw [List.cons_append, script_resetRequired codecs _ hbuilt, hon.2]
        · rw [List.cons_append, script_resetRequired codecs _ hbuilt, hstopped]
    | endOfStream => exact ⟨[], .inr ⟨.ended, fun _ => rfl⟩⟩
    | error error h => exact ⟨[], .inr ⟨_, fun _ => rfl⟩⟩

/-- Where a stream breaks off, its script ends, with no more than a packet that is cut. -/
theorem BreaksOff.script {tracks : List (Track A)} {before tail : List (Event A P)}
    (h : BreaksOff codecs tracks before tail) {trackDecoder reached : TrackDecoder δ}
    (hbuilt : decoderFor codecs tracks = .ok trackDecoder)
    (hreached : decoderAfter codecs trackDecoder before = some reached) :
    ∃ items, script codecs reached tail = (items, .ended) ∧
      (items = [] ∨ items = [.skipped] ∨ ∃ kind, items = [.failed (.ioError kind)]) := by
  cases h with
  | atEnd => exact ⟨[], rfl, .inl rfl⟩
  | unread => exact ⟨[], rfl, .inl rfl⟩
  | within packet hcut =>
    by_cases htrack : packet.trackId = reached.trackId
    · obtain ⟨decoder, kind, hdecode⟩ := hcut trackDecoder reached hbuilt hreached htrack
      refine ⟨[.failed (.ioError kind)], ?_, .inr (.inr ⟨kind, rfl⟩)⟩
      rw [script_packet codecs _ htrack hdecode]
      rfl
    · refine ⟨[.skipped], ?_, .inr (.inl rfl)⟩
      rw [script_skipped codecs _ htrack]
      rfl

end Script

/-- Of a script that ends well, what comes before an item has not failed. -/
theorem lastCut_front {front items later : List (Item α)} {item : Item α}
    (h : LastCut front (items ++ item :: later)) :
    (∀ error, Item.failed error ∉ items) ∧ ∃ rest, front = items ++ rest := by
  obtain ⟨hfront, hitems⟩ := h
  have hstarts : items <+: front := by
    rcases hitems with hitems | ⟨kind, hitems⟩
    · exact ⟨item :: later, hitems⟩
    · have hlength := congrArg List.length hitems
      simp only [List.length_append, List.length_cons, List.length_nil] at hlength
      refine List.prefix_of_prefix_length_le ⟨item :: later, rfl⟩ ?_ (by omega)
      exact hitems ▸ List.prefix_append _ _
  obtain ⟨rest, rfl⟩ := hstarts
  exact ⟨fun error hmem => hfront error (List.mem_append_left _ hmem), rest, rfl⟩

theorem lastCut_chunksOf {front items : List (Item α)} (h : LastCut front items) :
    chunksOf items = chunksOf front := by
  obtain ⟨-, rfl | ⟨kind, rfl⟩⟩ := h
  · rfl
  · rw [chunksOf, chunksOf, List.filterMap_append]
    exact List.append_nil _

/-- Items that have not failed may be followed by one that is passed over or cut. -/
theorem lastCut_append {front items : List (Item α)} (hfront : ∀ error, Item.failed error ∉ front)
    (hitems : items = [] ∨ items = [.skipped] ∨ ∃ kind, items = [.failed (.ioError kind)]) :
    ∃ front', LastCut front' (front ++ items) ∧ chunksOf front' = chunksOf front := by
  rcases hitems with rfl | rfl | ⟨kind, rfl⟩
  · exact ⟨front, ⟨hfront, .inl (List.append_nil _)⟩, rfl⟩
  · refine ⟨front ++ [.skipped], ⟨fun error => ?_, .inl rfl⟩, ?_⟩
    · simp [hfront error]
    · rw [chunksOf, chunksOf, List.filterMap_append]
      exact List.append_nil _
  · exact ⟨front, ⟨hfront, .inr ⟨kind, rfl⟩⟩, rfl⟩

section Heard

variable [LinearOrder α] [F32 α] (codecs : CodecRegistry A P δ α) (tracks : List (Track A))

def chunksIn (events : List (Event A P)) : List (AudioSpec × List α) :=
  match decoderFor codecs tracks with
  | .error _ => []
  | .ok trackDecoder => chunksOf (script codecs trackDecoder events).1

/-- What is judged to end well with chunks of one spec is heard as they are. -/
theorem hearAll_judged {trackDecoder : TrackDecoder δ}
    (hbuilt : decoderFor codecs tracks = .ok trackDecoder) (events : List (Event A P))
    {chunks : List (AudioSpec × List α)}
    (hjudge : judge (script codecs trackDecoder events).1 (script codecs trackDecoder events).2 =
      (chunks, none)) (spec : AudioSpec) (hsame : ∀ chunk ∈ chunks, chunk.1 = spec) :
    hearAll codecs (.ok ⟨tracks, events⟩) =
      if chunks = [] then .error (.decodeError "the stream carries no decodable audio")
      else .ok ⟨spec.rate, chunks.flatMap Prod.snd, none⟩ := by
  rw [hearAll]
  simp only [Except.mapError, bind, Except.bind, hbuilt, hjudge]
  cases chunks with
  | nil => rfl
  | cons chunk chunks =>
    obtain rfl := hsame chunk List.mem_cons_self
    rw [if_neg (List.cons_ne_nil _ _), List.flatMap_def]
    simp only [ofSpec_same _ _ _ hsame]
    rfl

/-- A stream heard without an error is judged to have ended, all its chunks of one spec. -/
theorem hearAll_ended (events : List (Event A P)) (heard : Heard α)
    (hheard : hearAll codecs (.ok ⟨tracks, events⟩) = .ok heard) (hfailure : heard.failure = none) :
    ∃ trackDecoder spec chunks, decoderFor codecs tracks = .ok trackDecoder ∧
      judge (script codecs trackDecoder events).1 (script codecs trackDecoder events).2 =
        (chunks, none) ∧
      (∀ chunk ∈ chunks, chunk.1 = spec) ∧ heard = ⟨spec.rate, chunks.flatMap Prod.snd, none⟩ := by
  rw [hearAll] at hheard
  cases hbuilt : decoderFor codecs tracks with
  | error error =>
    simp only [Except.mapError, bind, Except.bind, hbuilt] at hheard
    cases hheard
  | ok trackDecoder =>
    simp only [Except.mapError, bind, Except.bind, hbuilt] at hheard
    split at hheard
    · cases hheard
    · rename_i chunk chunks failure hjudge
      cases hheard
      obtain ⟨rfl, hsame, -⟩ :=
        (ofSpec_none chunk.1 (chunk :: chunks) failure _).mp (Prod.ext rfl hfailure)
      refine ⟨trackDecoder, chunk.1, chunk :: chunks, rfl, hjudge, hsame, ?_⟩
      rw [ofSpec_same _ _ _ hsame, List.flatMap_def]

/-- What a stream that ends well hands out starts with what it hands out where it breaks off. -/
theorem judge_breaksOff {trackDecoder : TrackDecoder δ}
    (hbuilt : decoderFor codecs tracks = .ok trackDecoder) (before after tail : List (Event A P))
    (packet : Packet P) (htail : BreaksOff codecs tracks before tail)
    (chunks : List (AudioSpec × List α))
    (hwhole : judge (script codecs trackDecoder (before ++ .packet packet :: after)).1
      (script codecs trackDecoder (before ++ .packet packet :: after)).2 = (chunks, none)) :
    judge (script codecs trackDecoder (before ++ tail)).1
        (script codecs trackDecoder (before ++ tail)).2 =
      (chunksOf (script codecs trackDecoder before).1, none) ∧
      ∃ later, chunks = chunksOf (script codecs trackDecoder before).1 ++ later := by
  obtain ⟨hended, clean, hclean, rfl⟩ := (judge_ended _ _ _).mp hwhole
  obtain ⟨front, hon | hstopped⟩ := script_front codecs trackDecoder before
  · obtain ⟨reached, hreached, hon⟩ := hon
    have hbefore : (script codecs trackDecoder before).1 = front := by
      have hnil := hon []
      rw [List.append_nil] at hnil
      rw [hnil]
      exact List.append_nil _
    obtain ⟨item, hitem⟩ := script_item codecs reached packet
    rw [hon, hitem] at hclean
    obtain ⟨hfront, rest, rfl⟩ := lastCut_front hclean
    obtain ⟨items, hscript, hitems⟩ := htail.script codecs hbuilt hreached
    obtain ⟨front', hcut, hchunks⟩ := lastCut_append hfront hitems
    rw [hbefore, hon, hscript]
    refine ⟨(judge_ended _ _ _).mpr ⟨rfl, front', hcut, hchunks.symm⟩, chunksOf rest, ?_⟩
    rw [chunksOf, chunksOf, chunksOf, List.filterMap_append]
  · obtain ⟨stop, hstopped⟩ := hstopped
    have hbefore : (script codecs trackDecoder before).1 = front := by
      have hnil := hstopped []
      rw [List.append_nil] at hnil
      rw [hnil]
    rw [hstopped] at hended hclean
    rw [hbefore, hstopped, lastCut_chunksOf hclean]
    exact ⟨(judge_ended _ _ _).mpr ⟨hended, clean, hclean, rfl⟩, [], (List.append_nil _).symm⟩

/-- Where a stream breaks off that is heard to its end, it is judged to end well, with the first
chunks of the whole one. -/
theorem chunksIn_breaksOff (before after tail : List (Event A P)) (packet : Packet P)
    (htail : BreaksOff codecs tracks before tail) (whole : Heard α)
    (hwhole : hearAll codecs (.ok ⟨tracks, before ++ .packet packet :: after⟩) = .ok whole)
    (hfailure : whole.failure = none) :
    (chunksIn codecs tracks before).flatMap Prod.snd <+: whole.frames ∧
      ∃ trackDecoder spec, decoderFor codecs tracks = .ok trackDecoder ∧
        judge (script codecs trackDecoder (before ++ tail)).1
          (script codecs trackDecoder (before ++ tail)).2 = (chunksIn codecs tracks before, none) ∧
        (∀ chunk ∈ chunksIn codecs tracks before, chunk.1 = spec) ∧ whole.rate = spec.rate := by
  obtain ⟨trackDecoder, spec, chunks, hbuilt, hjudge, hsame, rfl⟩ :=
    hearAll_ended codecs tracks _ whole hwhole hfailure
  obtain ⟨hcut, later, hlater⟩ :=
    judge_breaksOff codecs tracks hbuilt before after tail packet htail _ hjudge
  have hchunks : chunksIn codecs tracks before =
      chunksOf (script codecs trackDecoder before).1 := by
    rw [chunksIn, hbuilt]
  rw [← hchunks] at hcut hlater
  refine ⟨?_, trackDecoder, spec, hbuilt, hcut, fun chunk hmem => ?_, rfl⟩
  · rw [hlater, List.flatMap_append]
    exact List.prefix_append _ _
  · exact hsame chunk (hlater ▸ List.mem_append_left later hmem)

/-- What is heard where a stream breaks off starts what is heard of it whole. -/
theorem heard_first (before after tail : List (Event A P)) (packet : Packet P)
    (htail : BreaksOff codecs tracks before tail) {whole cut : Heard α}
    (hwhole : hearAll codecs (.ok ⟨tracks, before ++ .packet packet :: after⟩) = .ok whole)
    (hfailure : whole.failure = none)
    (hcut : hearAll codecs (.ok ⟨tracks, before ++ tail⟩) = .ok cut) :
    cut.rate = whole.rate ∧ cut.frames <+: whole.frames := by
  obtain ⟨hstarts, trackDecoder, spec, hbuilt, hjudge, hsame, hrate⟩ :=
    chunksIn_breaksOff codecs tracks before after tail packet htail whole hwhole hfailure
  rw [hearAll_judged codecs tracks hbuilt _ hjudge spec hsame] at hcut
  split at hcut
  · cases hcut
  · obtain rfl := Except.ok.inj hcut
    exact ⟨hrate.symm, hstarts⟩

end Heard

/-- A stream that is heard to its end is heard, where it breaks off, as all that the packets
before decode to, with no error. Only where they decode to nothing it is refused. -/
theorem heard_up_to_cut [LinearOrder α] [F32 α] (codecs : CodecRegistry A P δ α)
    (tracks : List (Track A)) (before after tail : List (Event A P)) (packet : Packet P)
    (htail : BreaksOff codecs tracks before tail) (whole : Heard α)
    (hwhole : hearAll codecs (.ok ⟨tracks, before ++ .packet packet :: after⟩) = .ok whole)
    (hfailure : whole.failure = none) :
    (chunksIn codecs tracks before).flatMap Prod.snd <+: whole.frames ∧
      hearAll codecs (.ok ⟨tracks, before ++ tail⟩) =
        if chunksIn codecs tracks before = [] then
          .error (.decodeError "the stream carries no decodable audio")
        else .ok ⟨whole.rate, (chunksIn codecs tracks before).flatMap Prod.snd, none⟩ := by
  obtain ⟨hstarts, trackDecoder, spec, hbuilt, hjudge, hsame, hrate⟩ :=
    chunksIn_breaksOff codecs tracks before after tail packet htail whole hwhole hfailure
  refine ⟨hstarts, ?_⟩
  rw [hrate]
  exact hearAll_judged codecs tracks hbuilt _ hjudge spec hsame

section Plain

open RealTransform

def plainTracks : List (Track Unit) := [⟨7, some (.audio ())⟩]

/-- A sample as its decoder yields it. -/
noncomputable def frameOf (x : Int16) : ℝ := F32.div (F32.ofInt x.toInt) (F32.ofInt (2 ^ 15 - 1))

/-- A packet of one loud sample and silence. -/
noncomputable def opening : List (Event Unit (Option (UInt32 × List ℝ))) :=
  [.packet ⟨7, some (16000, (pulse 7168).map frameOf)⟩]

/-- The packet after it, of one silent sample. -/
noncomputable def last : Packet (Option (UInt32 × List ℝ)) := ⟨7, some (16000, [frameOf 0])⟩

def broken : List (Event Unit (Option (UInt32 × List ℝ))) := [.packet ⟨7, none⟩]

theorem broken_breaksOff : BreaksOff plainCodecs plainTracks opening broken :=
  .within ⟨7, none⟩ fun _ _ _ _ _ => ⟨(), .unexpectedEof, rfl⟩

theorem opening_chunks : chunksIn plainCodecs plainTracks opening =
    [(monoSpec 16000, (pulse 7168).map frameOf)] := by
  change [chunkOf ⟨monoSpec 16000, (pulse 7168).map frameOf, one_dvd _⟩] = _
  rw [chunkOf_mono]

/-- The whole stream, one packet longer. -/
theorem opening_heard : hearAll plainCodecs (.ok ⟨plainTracks, opening ++ .packet last :: []⟩) =
    .ok ⟨16000, (pulse 7169).map frameOf, none⟩ := by
  have hjudge : judge (script plainCodecs ⟨7, ()⟩ (opening ++ .packet last :: [])).1
      (script plainCodecs ⟨7, ()⟩ (opening ++ .packet last :: [])).2 =
        ([(monoSpec 16000, (pulse 7168).map frameOf), (monoSpec 16000, [frameOf 0])], none) := by
    change ([chunkOf ⟨monoSpec 16000, (pulse 7168).map frameOf, one_dvd _⟩,
      chunkOf ⟨monoSpec 16000, [frameOf 0], one_dvd _⟩], none) = _
    rw [chunkOf_mono, chunkOf_mono]
  have hframes : (pulse 7169).map frameOf = (pulse 7168).map frameOf ++ [frameOf 0] := by
    rw [pulse, pulse, List.replicate_succ', ← List.cons_append, List.map_append]
    rfl
  rw [hearAll_judged plainCodecs plainTracks rfl _ hjudge (monoSpec 16000) (by simp),
    if_neg (List.cons_ne_nil _ _), hframes]
  rfl

theorem opening_broken_heard : hearAll plainCodecs (.ok ⟨plainTracks, opening ++ broken⟩) =
    .ok ⟨16000, (pulse 7168).map frameOf, none⟩ := by
  have hjudge : judge (script plainCodecs ⟨7, ()⟩ (opening ++ broken)).1
      (script plainCodecs ⟨7, ()⟩ (opening ++ broken)).2 =
        ([(monoSpec 16000, (pulse 7168).map frameOf)], none) := by
    change ([chunkOf ⟨monoSpec 16000, (pulse 7168).map frameOf, one_dvd _⟩], none) = _
    rw [chunkOf_mono]
  rw [hearAll_judged plainCodecs plainTracks rfl _ hjudge (monoSpec 16000) (by simp),
    if_neg (List.cons_ne_nil _ _), List.flatMap_singleton]
  rfl

theorem opening_heard_up_to_cut : hearAll plainCodecs (.ok ⟨plainTracks, opening ++ broken⟩) =
    .ok ⟨16000, (pulse 7168).map frameOf, none⟩ := by
  obtain ⟨-, hcut⟩ := heard_up_to_cut plainCodecs plainTracks opening [] broken last
    broken_breaksOff _ opening_heard rfl
  rw [opening_chunks, if_neg (List.cons_ne_nil _ _)] at hcut
  rw [hcut, List.flatMap_singleton]

end Plain

section Samples

variable {σ β E : Type} (r : Resampler σ α β E)

theorem consume_extends (s s' : σ) (produced produced' frames rest : List α)
    (h : consume r s produced frames = .ok (s', produced', rest)) : produced <+: produced' := by
  by_cases hsmall : frames.length ≤ chunkFrames
  · rw [consume_small r s produced frames hsmall] at h
    cases h
    exact List.prefix_rfl
  · rw [consume_step r s produced frames (by omega)] at h
    cases hcall : r.processIntoBuffer s (frames.take chunkFrames) none with
    | error error =>
      rw [hcall] at h
      cases h
    | ok called =>
      rw [hcall] at h
      exact (List.prefix_append _ _).trans (consume_extends called.1 s' _ produced' _ rest h)
termination_by frames.length
decreasing_by exact drop_chunk_lt (by omega)

theorem consumeRest_extends (s s' : σ) (produced produced' rest : List α)
    (h : consumeRest r s produced rest = .ok (s', produced')) : produced <+: produced' := by
  rw [consumeRest] at h
  split at h
  · cases hcall : r.processIntoBuffer s rest (some rest.length) with
    | error error =>
      rw [hcall] at h
      cases h
    | ok called =>
      rw [hcall] at h
      cases h
      exact List.prefix_append _ _
  · cases h
    exact List.prefix_rfl

theorem pump_extends (count fuel : Nat) (s : σ) (produced produced' : List α)
    (h : pump r count fuel s produced = some (.ok produced')) : produced <+: produced' := by
  induction fuel generalizing s produced with
  | zero => cases h
  | succ fuel ih =>
    rw [pump] at h
    split at h
    · split at h
      · cases h
      · exact (List.prefix_append _ _).trans (ih _ _ h)
    · cases h
      exact List.prefix_rfl

variable [LinearOrder α] [F32 α] [LinearOrder β] [F64 β]

/-- The samples that the chunks consumed so far have settled. -/
def settled (produced : List α) : List Int16 := (produced.drop r.outputDelay).map toI16

/-- As far as they reach, the samples of a clip are those its first frames have settled. -/
theorem wholeClip_settled (fuel : Nat) (frames more : List α) (s : σ) (produced rest : List α)
    (samples : List Int16) (hconsume : consume r r.start [] frames = .ok (s, produced, rest))
    (hclip : wholeClip r fuel (frames ++ more) = some (.ok samples)) :
    (settled r produced).take samples.length <+: samples := by
  rw [wholeClip_eq, consume_append, hconsume] at hclip
  simp only [Except.bind] at hclip
  cases hlater : consume r s produced (rest ++ more) with
  | error error =>
    rw [hlater] at hclip
    cases hclip
  | ok consumed =>
    obtain ⟨s', produced', rest'⟩ := consumed
    rw [hlater] at hclip
    simp only at hclip
    cases hrest : consumeRest r s' produced' rest' with
    | error error =>
      rw [hrest] at hclip
      cases hclip
    | ok finished =>
      obtain ⟨s'', produced''⟩ := finished
      rw [hrest] at hclip
      simp only [Option.map_eq_some_iff] at hclip
      obtain ⟨pumped, hpump, hclip⟩ := hclip
      cases pumped with
      | error error => cases hclip
      | ok final =>
        cases hclip
        have hextends : produced <+: final :=
          (consume_extends r _ _ _ _ _ _ hlater).trans
            ((consumeRest_extends r _ _ _ _ _ hrest).trans (pump_extends r _ _ _ _ _ hpump))
        rw [List.length_map, List.length_take, settled, ← List.map_take]
        apply List.IsPrefix.map
        rw [← List.take_take]
        exact ((List.take_prefix _ _).trans (hextends.drop _)).take _

end Samples

section Landmarks

open MachineInt SignatureFormat Algorithm PcmSamples LongerAudio Segment

variable {σ β E : Type} [LinearOrder α] [F32 α] [LinearOrder β] [F64 β]

/-- All that is resampled of a source is analysed, some eighteen hours of it at most. -/
def Entire (backend : Backend A P δ α σ β E) (source : MediaSource)
    (segmentDurationSeconds : Option UInt32) : Prop :=
  ∀ heard r, hearAll backend.codecs (backend.probe source) = .ok heard →
    backend.sincResampler heard.rate = .ok r →
      clipLength r heard.frames.length ≤
        min backend.width.max (min (wanted segmentDurationSeconds) (2 ^ 30))

theorem Entire.fits {backend : Backend A P δ α σ β E} {source : MediaSource}
    {segmentDurationSeconds : Option UInt32} (h : Entire backend source segmentDurationSeconds) :
    Fits backend source segmentDurationSeconds := by
  intro heard r hheard hr
  have hbounds := h heard r hheard hr
  omega

omit [LinearOrder β] [F64 β] in
theorem fingerprint_eq_ok {backend : Backend A P δ α σ β E}
    {segmentDurationSeconds : Option UInt32}
    {rawPcmSamples : Option (Except (Failure E) (List Int16))} {signature : DecodedSignature}
    (h : fingerprint backend segmentDurationSeconds rawPcmSamples = .returned (.ok signature)) :
    ∃ samples, rawPcmSamples = some (.ok samples) ∧ Segment.makeSignature backend.width
      backend.overflow backend.fft samples segmentDurationSeconds = some signature := by
  unfold fingerprint at h
  split at h
  · cases h
  · cases h
  · rename_i samples
    refine ⟨samples, rfl, ?_⟩
    generalize Segment.makeSignature backend.width backend.overflow backend.fft samples
      segmentDurationSeconds = made at h
    cases made with
    | none => cases h
    | some made =>
      cases h
      rfl

theorem samplesAtOnce_eq_ok {sincResampler : UInt32 → Except E (Resampler σ α β E)} {fuel : Nat}
    {heard : Heard α} {samples : List Int16}
    (h : samplesAtOnce sincResampler fuel heard = some (.ok samples)) :
    ∃ r, sincResampler heard.rate = .ok r ∧ heard.failure = none ∧
      wholeClip r fuel heard.frames = some (.ok samples) := by
  rw [samplesAtOnce] at h
  cases hr : sincResampler heard.rate with
  | error error =>
    rw [hr] at h
    cases h
  | ok r =>
    rw [hr] at h
    refine ⟨r, rfl, ?_⟩
    cases hfailure : heard.failure with
    | some failure =>
      rw [hfailure] at h
      simp only at h
      split at h
      · cases h
      · cases h
    | none =>
      rw [hfailure] at h
      simp only [Option.map_eq_some_iff] at h
      obtain ⟨clip, hclip, hmapped⟩ := h
      cases clip with
      | error error => cases hmapped
      | ok samples' =>
        cases hmapped
        exact ⟨rfl, hclip⟩

/-- A clip that is resampled has had its whole chunks consumed. -/
theorem wholeClip_consumed {r : Resampler σ α β E} {fuel : Nat} {frames : List α}
    {samples : List Int16} (h : wholeClip r fuel frames = some (.ok samples)) :
    ∃ s produced rest, consume r r.start [] frames = .ok (s, produced, rest) := by
  cases hconsume : consume r r.start [] frames with
  | error error =>
    rw [wholeClip_eq, hconsume] at h
    cases h
  | ok consumed => exact ⟨consumed.1, consumed.2.1, consumed.2.2, rfl⟩

/-- Behind the signature of an entire source lie a stream heard to its end, its samples, and the
analysis of them all. -/
theorem signature_of_samples (backend : Backend A P δ α σ β E) {fuel : Nat} {source : MediaSource}
    {segmentDurationSeconds : Option UInt32} {signature : DecodedSignature}
    (hentire : Entire backend source segmentDurationSeconds)
    (h : makeSignatureFrom backend fuel source segmentDurationSeconds =
      .returned (.ok signature)) :
    ∃ heard r samples, hearAll backend.codecs (backend.probe source) = .ok heard ∧
      heard.failure = none ∧ backend.sincResampler heard.rate = .ok r ∧
      wholeClip r fuel heard.frames = some (.ok samples) ∧ samples.length ≤ 2 ^ 30 ∧
      makeSignatureFromBuffer backend.overflow backend.fft samples = some signature := by
  rw [makeSignatureFrom_eq, signatureAtOnce] at h
  cases hheard : hearAll backend.codecs (backend.probe source) with
  | error error =>
    rw [hheard] at h
    cases h
  | ok heard =>
    rw [hheard] at h
    obtain ⟨samples, hsamples, hmake⟩ := fingerprint_eq_ok h
    obtain ⟨r, hr, hfailure, hclip⟩ := samplesAtOnce_eq_ok hsamples
    have hbounds := hentire heard r hheard hr
    rw [← wholeClip_length r fuel heard.frames samples hclip, Nat.le_min, Nat.le_min] at hbounds
    obtain ⟨hfit, hshort, hlength⟩ := hbounds
    rw [Segment.makeSignature, middleSegment_short _ _ _ hfit _ hshort] at hmake
    have hwhole : (Slice.whole samples).toVec = samples := List.take_length
    rw [Option.bind_eq_bind, Option.bind_some, hwhole] at hmake
    exact ⟨heard, r, samples, rfl, hfailure, hr, hclip, hlength, hmake⟩

omit [LinearOrder β] [F64 β] in
theorem numberSamples_of_samples {o : Overflow} {fft : Vector α 2048 → Vector (α × α) 1025}
    {samples : List Int16} {signature : DecodedSignature} (hlength : samples.length ≤ 2 ^ 30)
    (h : makeSignatureFromBuffer o fft samples = some signature) :
    signature.numberSamples.toNat = samples.length := by
  have hlt : samples.length < UInt32.size := Nat.lt_of_le_of_lt hlength (by decide)
  rw [(ChunkRuns.makeSignatureFromBuffer_labels h).2, UInt32.toNat_ofNat_of_lt' hlt]

/-- Two clips that start with the same frames have the samples in common that those settle. -/
theorem settled_common (r : Resampler σ α β E) (fuel : Nat) (frames more : List α) (s : σ)
    (produced rest : List α) (samples samples' : List Int16)
    (hconsume : consume r r.start [] frames = .ok (s, produced, rest))
    (hclip : wholeClip r fuel (frames ++ more) = some (.ok samples))
    (hclip' : wholeClip r fuel frames = some (.ok samples')) :
    ∃ common t t', samples = common ++ t ∧ samples' = common ++ t' ∧
      common.length = min (settled r produced).length (min samples.length samples'.length) := by
  have hfirst := wholeClip_settled r fuel frames more s produced rest samples hconsume hclip
  have hfirst' := wholeClip_settled r fuel frames [] s produced rest samples' hconsume
    (by rwa [List.append_nil])
  obtain ⟨t, ht⟩ := (List.take_prefix_take_left (Nat.min_le_left _ samples'.length)).trans hfirst
  obtain ⟨t', ht'⟩ := (List.take_prefix_take_left (Nat.min_le_right samples.length _)).trans hfirst'
  refine ⟨_, t, t', ht.symm, ht'.symm, ?_⟩
  rw [List.length_take, Nat.min_comm]

omit [LinearOrder β] [F64 β] in
/-- Buffers that start alike share the landmarks of what they have in common. -/
theorem peaksOf_common {o : Overflow} {fft : Vector α 2048 → Vector (α × α) 1025}
    {common t t' : List Int16} (hlength : (common ++ t).length ≤ 2 ^ 30)
    (hlength' : (common ++ t').length ≤ 2 ^ 30) {whole cut : DecodedSignature}
    (hwhole : makeSignatureFromBuffer o fft (common ++ t) = some whole)
    (hcut : makeSignatureFromBuffer o fft (common ++ t') = some cut) (band : FrequencyBand) :
    ∃ shared later later', peaksOf whole band = shared ++ later ∧
      peaksOf cut band = shared ++ later' ∧
      ∀ peak ∈ later ++ later', common.length / 128 < peak.fftPassNumber.toNat + 46 := by
  obtain ⟨later, hlater, hpasses⟩ := peaksOf_longer o fft common t (by omega) hwhole band
  obtain ⟨later', hlater', hpasses'⟩ := peaksOf_longer o fft common t' (by omega) hcut band
  exact ⟨_, later, later', hlater, hlater', fun peak hpeak =>
    (List.mem_append.mp hpeak).elim (hpasses peak) (hpasses' peak)⟩

/-- Where a source breaks off, the landmarks are those of the whole one in every band, as far as
the chunks have settled that the resampler has whole; any other lies in a later pass. -/
theorem landmarks_up_to_cut (backend : Backend A P δ α σ β E) (fuel : Nat)
    (segmentDurationSeconds : Option UInt32) (source source' : MediaSource)
    (tracks : List (Track A)) (before after tail : List (Event A P)) (packet : Packet P)
    (hprobe : backend.probe source = .ok ⟨tracks, before ++ .packet packet :: after⟩)
    (hprobe' : backend.probe source' = .ok ⟨tracks, before ++ tail⟩)
    (htail : BreaksOff backend.codecs tracks before tail)
    (hentire : Entire backend source segmentDurationSeconds)
    (hentire' : Entire backend source' segmentDurationSeconds)
    (whole cut : DecodedSignature)
    (hwhole : makeSignatureFrom backend fuel source segmentDurationSeconds =
      .returned (.ok whole))
    (hcut : makeSignatureFrom backend fuel source' segmentDurationSeconds =
      .returned (.ok cut)) :
    ∃ heard r s produced rest, hearAll backend.codecs (backend.probe source') = .ok heard ∧
      backend.sincResampler heard.rate = .ok r ∧
      consume r r.start [] heard.frames = .ok (s, produced, rest) ∧ rest.length ≤ chunkFrames ∧
      ∀ band, ∃ shared later later', peaksOf whole band = shared ++ later ∧
        peaksOf cut band = shared ++ later' ∧
        ∀ peak ∈ later ++ later',
          min (settled r produced).length (min whole.numberSamples.toNat cut.numberSamples.toNat) /
            128 < peak.fftPassNumber.toNat + 46 := by
  obtain ⟨heard, r, samples, hheard, hfailure, hr, hclip, hlength, hmake⟩ :=
    signature_of_samples backend hentire hwhole
  obtain ⟨heard', r', samples', hheard', -, hr', hclip', hlength', hmake'⟩ :=
    signature_of_samples backend hentire' hcut
  obtain ⟨s, produced, rest, hconsume⟩ := wholeClip_consumed hclip'
  refine ⟨heard', r', s, produced, rest, hheard', hr', hconsume,
    consume_rest r' _ _ _ _ _ _ hconsume, fun band => ?_⟩
  obtain ⟨hrate, more, hmore⟩ := heard_first backend.codecs tracks before after tail packet htail
    (hprobe ▸ hheard) hfailure (hprobe' ▸ hheard')
  obtain rfl : r = r' := Except.ok.inj (hr.symm.trans (hrate ▸ hr'))
  obtain ⟨common, t, t', rfl, rfl, hsettled⟩ := settled_common r fuel heard'.frames more s produced
    rest samples samples' hconsume (hmore ▸ hclip) hclip'
  rw [numberSamples_of_samples hlength hmake, numberSamples_of_samples hlength' hmake', ← hsettled]
  exact peaksOf_common hlength hlength' hmake hmake' band

end Landmarks

section PlainLandmarks

open MachineInt SignatureFormat Algorithm LongerAudio Segment RealTransform

/-- A resampler that has nothing to do: chunks come out as they went in, a partial one with
silence after it. -/
noncomputable def passthrough : Resampler Unit ℝ Rat Unit where
  start := ()
  processIntoBuffer _ input partialFrames :=
    let frames := input.take (partialFrames.getD chunkFrames)
    .ok ((), frames.length, frames ++ List.replicate (chunkFrames - frames.length) 0)
  resampleRatio := 1
  outputDelay := 0
  full_chunk _ input _ := by simp [List.take_take]
  full_consumes _ input s' consumed produced h hcall := by
    cases hcall
    rw [Option.getD_none, List.length_take, Nat.min_eq_left h]

/-- All but the last of its chunks come through. -/
theorem consume_passthrough (produced frames : List ℝ) : ∃ through rest,
    consume passthrough () produced frames = .ok ((), produced ++ through, rest) ∧
      frames = through ++ rest ∧ chunkFrames ∣ through.length ∧ rest.length ≤ chunkFrames ∧
      (frames ≠ [] → rest ≠ []) := by
  by_cases hsmall : frames.length ≤ chunkFrames
  · refine ⟨[], frames, ?_, rfl, dvd_zero _, hsmall, id⟩
    rw [consume_small passthrough () produced frames hsmall, List.append_nil]
  · have hchunk : (frames.take chunkFrames).length = chunkFrames := by
      rw [List.length_take]
      omega
    have hcall : passthrough.processIntoBuffer () (frames.take chunkFrames) none =
        .ok ((), chunkFrames, frames.take chunkFrames) := by
      simp [passthrough, hchunk]
    obtain ⟨through, rest, hconsume, hframes, hwhole, hrest, hsome⟩ :=
      consume_passthrough (produced ++ frames.take chunkFrames) (frames.drop chunkFrames)
    refine ⟨frames.take chunkFrames ++ through, rest, ?_, ?_, ?_, hrest, fun _ => hsome ?_⟩
    · rw [consume_step passthrough () produced frames (by omega), hcall, ← List.append_assoc]
      exact hconsume
    · rw [List.append_assoc, ← hframes, List.take_append_drop]
    · rw [List.length_append, hchunk]
      exact (dvd_refl _).add hwhole
    · rw [Ne, List.drop_eq_nil_iff]
      omega
termination_by frames.length
decreasing_by exact drop_chunk_lt (by omega)

theorem clipLength_passthrough (n : Nat) (hn : n < 2 ^ 64) : clipLength passthrough n = n := by
  have hceil : F64.ceil (F64.mul passthrough.resampleRatio (F64.ofNat n)) = (n : Int) := by
    change ⌈(1 : Rat) * n⌉ = n
    rw [one_mul, Int.ceil_natCast]
  rw [clipLength, hceil]
  omega

theorem toI16_frameOf (x : Int16) : toI16 (frameOf x) = x := by
  have hfull : F32.trunc (F32.mul (frameOf x) (F32.ofInt 32767)) = x.toInt := by
    have hexact : F32.mul (frameOf x) (F32.ofInt 32767) = (x.toInt : ℝ) := by
      norm_num [frameOf, F32.mul, F32.div, F32.ofInt]
    rw [hexact]
    change F32.exactTrunc ((x.toInt : Int) : ℝ) = x.toInt
    rw [F32.exactTrunc, Int.floor_intCast, Int.ceil_intCast, ite_self]
  have hlo := x.le_toInt
  have hhi := x.toInt_lt
  rw [toI16_eq, hfull, min_eq_right (by omega), max_eq_right (by omega), Int16.ofInt_toInt]

/-- Nothing is left to flush: the samples are the frames. -/
theorem wholeClip_passthrough (frames : List ℝ) (hne : frames ≠ []) (h : frames.length < 2 ^ 64) :
    wholeClip passthrough 1 frames = some (.ok (frames.map toI16)) := by
  obtain ⟨through, rest, hconsume, hframes, -, hrest, hsome⟩ := consume_passthrough [] frames
  have hcall : passthrough.processIntoBuffer () rest (some rest.length) =
      .ok ((), rest.length, rest ++ List.replicate (chunkFrames - rest.length) 0) := by
    simp [passthrough]
  have hpartial : consumeRest passthrough () through rest =
      .ok ((), through ++ (rest ++ List.replicate (chunkFrames - rest.length) 0)) := by
    rw [consumeRest, if_pos (hsome hne), hcall]
    rfl
  have hdelay : passthrough.outputDelay = 0 := rfl
  have hproduced : (frames ++ List.replicate (chunkFrames - rest.length) 0).take frames.length =
      frames := List.take_left
  rw [wholeClip_eq, ← clipLength_eq, clipLength_passthrough _ h, hconsume]
  simp only [Except.bind, List.nil_append, hpartial, hdelay, List.drop_zero, ← List.append_assoc,
    ← hframes]
  rw [pump, if_neg (by simp [hdelay])]
  simp only [Option.map_some, Except.map, hproduced]

/-- Bytes are probed as the whole stream, a file as the one that breaks off. -/
noncomputable def breakingBackend :
    Backend Unit (Option (UInt32 × List ℝ)) Unit ℝ Unit Rat Unit where
  width := .w64
  overflow := .panics
  probe source :=
    match source with
    | .cursor _ => .ok ⟨plainTracks, opening ++ .packet last :: []⟩
    | .file _ => .ok ⟨plainTracks, opening ++ broken⟩
  codecs := plainCodecs
  sincResampler _ := .ok passthrough
  fft := ear

theorem breakingBackend_heard (source : MediaSource) : ∃ n, 7168 ≤ n ∧ n ≤ 7169 ∧
    hearAll breakingBackend.codecs (breakingBackend.probe source) =
      .ok ⟨16000, (pulse n).map frameOf, none⟩ := by
  cases source with
  | cursor bytes => exact ⟨7169, by omega, le_rfl, opening_heard⟩
  | file contents => exact ⟨7168, le_rfl, by omega, opening_broken_heard⟩

theorem breakingBackend_entire (source : MediaSource) :
    Entire breakingBackend source (some 12) := by
  intro heard r hheard hr
  obtain ⟨n, -, hn, hpulse⟩ := breakingBackend_heard source
  obtain rfl := Except.ok.inj (hpulse.symm.trans hheard)
  obtain rfl : passthrough = r := Except.ok.inj hr
  have hwanted : wanted (some 12) = 192000 := by decide
  have hwidth : breakingBackend.width.max = 2 ^ 64 - 1 := rfl
  rw [hwanted, hwidth, List.length_map, length_pulse, clipLength_passthrough _ (by omega)]
  omega

/-- Either source has the signature of the pulse it holds. -/
theorem breakingBackend_signed (source : MediaSource) : ∃ n signature peak,
    7168 ≤ n ∧ n ≤ 7169 ∧
    makeSignatureFrom breakingBackend 1 source (some 12) = .returned (.ok signature) ∧
    signature.numberSamples.toNat = n + 1 ∧
    peak ∈ peaksOf signature ._520_1450 ∧ peak.fftPassNumber.toNat = 7 := by
  obtain ⟨n, hlo, hhi, hpulse⟩ := breakingBackend_heard source
  obtain ⟨signature, peak, hmake, hpeak, hpass⟩ := pulse_found n (by omega) (by omega)
  have hclip : wholeClip passthrough 1 ((pulse n).map frameOf) = some (.ok (pulse n)) := by
    rw [wholeClip_passthrough _ (by simp [pulse]) (by simp; omega), List.map_map]
    congr 2
    exact List.map_id'' toI16_frameOf _
  have hsamples : samplesAtOnce breakingBackend.sincResampler 1
      ⟨16000, (pulse n).map frameOf, none⟩ = some (.ok (pulse n)) := by
    have hr : breakingBackend.sincResampler 16000 = .ok passthrough := rfl
    rw [samplesAtOnce, hr]
    simp only [hclip]
    rfl
  have hsegment : Segment.makeSignature breakingBackend.width breakingBackend.overflow
      breakingBackend.fft (pulse n) (some 12) = some signature := by
    have hwanted : wanted (some 12) = 192000 := by decide
    have hwidth : breakingBackend.width.max = 2 ^ 64 - 1 := rfl
    have hwhole : (Slice.whole (pulse n)).toVec = pulse n := List.take_length
    rw [Segment.makeSignature, middleSegment_short _ _ _ (by rw [hwidth, length_pulse]; omega) _
      (by rw [hwanted, length_pulse]; omega), Option.bind_eq_bind, Option.bind_some, hwhole]
    exact hmake
  refine ⟨n, signature, peak, hlo, hhi, ?_, ?_, hpeak, hpass⟩
  · rw [makeSignatureFrom_eq, signatureAtOnce, hpulse]
    simp only [hsamples, fingerprint, hsegment]
    rfl
  · rw [numberSamples_of_samples (by rw [length_pulse]; omega) hmake, length_pulse]

/-- Of a pulse as long as that of the opening, seven chunks come through. -/
theorem settled_passthrough {s : Unit} {produced rest : List ℝ}
    (h : consume passthrough () [] ((pulse 7168).map frameOf) = .ok (s, produced, rest)) :
    (settled passthrough produced).length = 7168 := by
  obtain ⟨through, rest', hconsume, hframes, ⟨chunks, hwhole⟩, hrest, hsome⟩ :=
    consume_passthrough [] ((pulse 7168).map frameOf)
  have hthrough : produced = through := by
    have hsame := Except.ok.inj (h.symm.trans hconsume)
    rw [Prod.mk.injEq, Prod.mk.injEq] at hsame
    exact hsame.2.1
  have hlength := congrArg List.length hframes
  have hne : (pulse 7168).map frameOf ≠ [] := by
    rw [pulse, List.map_cons]
    exact List.cons_ne_nil _ _
  have hpos := List.length_pos_iff.mpr (hsome hne)
  rw [List.length_append, List.length_map, length_pulse, hwhole] at hlength
  have hdelay : passthrough.outputDelay = 0 := rfl
  rw [settled, List.length_map, hdelay, List.drop_zero, hthrough, hwhole]
  rw [chunkFrames] at hlength hrest ⊢
  omega

/-- The seven chunks before the break settle 56 passes: the pulse is a landmark of both sources,
and any that only one of them has lies past pass 10. -/
theorem opening_landmarks_up_to_cut : ∃ whole cut,
    makeSignatureFromBytes breakingBackend 1 [] (some 12) = .returned (.ok whole) ∧
    makeSignatureFromFile breakingBackend 1 (.ok []) (some 12) = .returned (.ok cut) ∧
    ∀ band, ∃ shared later later', peaksOf whole band = shared ++ later ∧
      peaksOf cut band = shared ++ later' ∧
      (∀ peak ∈ later ++ later', 10 < peak.fftPassNumber.toNat) ∧
      (band = ._520_1450 → ∃ peak ∈ shared, peak.fftPassNumber.toNat = 7) := by
  obtain ⟨n, whole, -, hn, -, hwhole, hnumber, -⟩ := breakingBackend_signed (.cursor [])
  obtain ⟨n', cut, peak, hn', -, hcut, hnumber', hpeak, hpass⟩ := breakingBackend_signed (.file [])
  refine ⟨whole, cut, hwhole, hcut, fun band => ?_⟩
  obtain ⟨heard, r, s, produced, rest, hheard, hr, hconsume, -, hbands⟩ :=
    landmarks_up_to_cut breakingBackend 1 (some 12) (.cursor []) (.file []) plainTracks opening []
      broken last rfl rfl broken_breaksOff (breakingBackend_entire _) (breakingBackend_entire _)
      whole cut hwhole hcut
  obtain rfl := Except.ok.inj (hheard.symm.trans opening_broken_heard)
  obtain rfl : r = passthrough := (Except.ok.inj hr).symm
  have hsettled := settled_passthrough hconsume
  obtain ⟨shared, later, later', hshared, hshared', hpasses⟩ := hbands band
  have hlater : ∀ peak ∈ later ++ later', 10 < peak.fftPassNumber.toNat := by
    intro peak hpeak
    have hpass := hpasses peak hpeak
    rw [hsettled, hnumber, hnumber'] at hpass
    omega
  refine ⟨shared, later, later', hshared, hshared', hlater, ?_⟩
  rintro rfl
  rw [hshared', List.mem_append] at hpeak
  rcases hpeak with hpeak | hpeak
  · exact ⟨peak, hpeak, hpass⟩
  · have hpassed := hlater peak (List.mem_append_right later hpeak)
    omega

end PlainLandmarks

end ShortenedStream
