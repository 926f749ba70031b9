import Mathlib
import ShazamioCore.DecodeScript

/-!
# Packets of other tracks

A reader interleaves the selected track with others, whose packets the decoder passes over.
With those deleted it hands out the same chunks, and it stops in the same way but for one
case: a packet cut by an I/O error is taken for the last one only if no packet of any track
follows it.
-/
namespace OtherTracks

open Decode DecodeScript

variable {A P δ α K : Type}

/-- The events, less each packet of another track than the one selected at its point. -/
def ownTrack (codecs : CodecRegistry A P δ α) : UInt32 → List (Event A P) → List (Event A P)
  | _, [] => []
  | selected, .packet packet :: events =>
    if packet.trackId ≠ selected then ownTrack codecs selected events
    else .packet packet :: ownTrack codecs selected events
  | selected, .resetRequired tracks :: events =>
    match decoderFor codecs tracks with
    | .error _ => .resetRequired tracks :: ownTrack codecs selected events
    | .ok trackDecoder => .resetRequired tracks :: ownTrack codecs trackDecoder.trackId events
  | selected, event :: events => event :: ownTrack codecs selected events

def Item.isOwn : Item α → Bool
  | .skipped => false
  | _ => true

/-- The first packet to fail does so with an I/O error, others follow it but none of its
track, and the reader does not stop with an error of that kind. -/
def Masked (kind : Error → K) (items : List (Item α)) (stop : Stop) : Prop :=
  ∃ front ioKind rest, items = front ++ .failed (.ioError ioKind) :: rest ∧
    (∀ error, Item.failed error ∉ front) ∧ rest ≠ [] ∧ (∀ item ∈ rest, item = .skipped) ∧
    stop.failure.map kind ≠ some (kind (.ioError ioKind))

theorem masked_nil (kind : Error → K) (stop : Stop) : ¬Masked kind ([] : List (Item α)) stop := by
  rintro ⟨front, ioKind, rest, hitems, -⟩
  simp at hitems

theorem masked_cons (kind : Error → K) (item : Item α) (items : List (Item α)) (stop : Stop)
    (hitem : ∀ error, item ≠ .failed error) :
    Masked kind (item :: items) stop ↔ Masked kind items stop := by
  constructor
  · rintro ⟨front, ioKind, rest, hitems, hfront, hrest⟩
    cases front with
    | nil => exact absurd (List.cons.inj hitems).1 (hitem _)
    | cons first front =>
      exact ⟨front, ioKind, rest, (List.cons.inj hitems).2,
        fun error hmem => hfront error (List.mem_cons_of_mem _ hmem), hrest⟩
  · rintro ⟨front, ioKind, rest, rfl, hfront, hrest⟩
    refine ⟨item :: front, ioKind, rest, rfl, fun error hmem => ?_, hrest⟩
    rcases List.mem_cons.mp hmem with hfirst | hmem
    · exact hitem error hfirst.symm
    · exact hfront error hmem

theorem masked_failed (kind : Error → K) (error : Error) (items : List (Item α)) (stop : Stop) :
    Masked kind (.failed error :: items) stop ↔
      (∃ ioKind, error = .ioError ioKind) ∧ items ≠ [] ∧ (∀ item ∈ items, item = .skipped) ∧
        stop.failure.map kind ≠ some (kind error) := by
  constructor
  · rintro ⟨front, ioKind, rest, hitems, hfront, hrest⟩
    cases front with
    | nil =>
      cases hitems
      exact ⟨⟨ioKind, rfl⟩, hrest⟩
    | cons first front =>
      obtain rfl := (List.cons.inj hitems).1
      exact absurd List.mem_cons_self (hfront error)
  · rintro ⟨⟨ioKind, rfl⟩, hrest⟩
    exact ⟨[], ioKind, items, rfl, fun _ => List.not_mem_nil, hrest⟩

theorem filter_isOwn_eq_nil (items : List (Item α)) :
    items.filter Item.isOwn = [] ↔ ∀ item ∈ items, item = .skipped := by
  rw [List.filter_eq_nil_iff]
  refine forall₂_congr fun item _ => ?_
  cases item with
  | skipped => simp [Item.isOwn]
  | decoded chunk => simp [Item.isOwn]
  | failed error => simp [Item.isOwn]

/-- Past a failure the chunks are the same with or without the packets of other tracks; the outcome
is, unless those alone make the failure count. -/
theorem judge_failed_own (kind : Error → K) (error : Error) (items : List (Item α)) (stop : Stop) :
    (judge (.failed error :: items.filter Item.isOwn) stop).1 =
        (judge (.failed error :: items) stop).1 ∧
      ((judge (.failed error :: items.filter Item.isOwn) stop).2.map kind =
          (judge (.failed error :: items) stop).2.map kind ↔
        ¬Masked kind (.failed error :: items) stop) := by
  rw [masked_failed]
  by_cases hio : ∃ ioKind, error = .ioError ioKind
  · obtain ⟨ioKind, rfl⟩ := hio
    by_cases hitems : items = []
    · subst hitems
      simp
    · rw [judge_failed_of_ne_nil _ items stop hitems]
      by_cases hown : items.filter Item.isOwn = []
      · rw [hown]
        have hskipped := (filter_isOwn_eq_nil items).mp hown
        constructor
        · rfl
        · change stop.failure.map kind = some (kind (.ioError ioKind)) ↔ _
          constructor
          · intro hkind hmasked
            exact hmasked.2.2.2 hkind
          · intro hmasked
            by_contra hdiffers
            exact hmasked ⟨⟨ioKind, rfl⟩, hitems, hskipped, hdiffers⟩
      · rw [judge_failed_of_ne_nil _ _ stop hown]
        have hseen : ¬∀ item ∈ items, item = .skipped := mt (filter_isOwn_eq_nil items).mpr hown
        simp [hseen]
  · rw [judge_failed_of_not_io error _ stop hio, judge_failed_of_not_io error _ stop hio]
    simp [hio]

/-- The judge misses no skipped item but behind a packet cut short. -/
theorem judge_own (kind : Error → K) (items : List (Item α)) (stop : Stop) :
    (judge (items.filter Item.isOwn) stop).1 = (judge items stop).1 ∧
      ((judge (items.filter Item.isOwn) stop).2.map kind = (judge items stop).2.map kind ↔
        ¬Masked kind items stop) := by
  induction items with
  | nil => exact ⟨rfl, iff_of_true rfl (masked_nil kind stop)⟩
  | cons item items ih =>
    cases item with
    | skipped =>
      rw [masked_cons kind _ items stop (by simp)]
      exact ih
    | decoded chunk =>
      rw [masked_cons kind _ items stop (by simp)]
      exact ⟨congrArg (chunk :: ·) ih.1, ih.2⟩
    | failed error => exact judge_failed_own kind error items stop

variable [LinearOrder α] [F32 α]

/-- Without the packets of other tracks, the script lacks what is passed over. -/
theorem script_ownTrack (codecs : CodecRegistry A P δ α) (trackDecoder : TrackDecoder δ)
    (events : List (Event A P)) :
    script codecs trackDecoder (ownTrack codecs trackDecoder.trackId events) =
      ((script codecs trackDecoder events).1.filter Item.isOwn,
        (script codecs trackDecoder events).2) := by
  induction events generalizing trackDecoder with
  | nil => rfl
  | cons event events ih =>
    cases event with
    | packet packet =>
      by_cases htrack : packet.trackId = trackDecoder.trackId
      · cases hdecode : codecs.decode trackDecoder.decoder packet.data with
        | mk decoder result =>
          rw [ownTrack, if_neg (not_not.mpr htrack), script_packet codecs _ htrack hdecode,
            script_packet codecs _ htrack hdecode, ih { trackDecoder with decoder := decoder }]
          cases result with
          | error error => rfl
          | ok audioBuffer => rfl
      · rw [ownTrack, if_pos htrack, script_skipped codecs events htrack, ih]
        rfl
    | resetRequired tracks =>
      rw [ownTrack]
      cases hbuilt : decoderFor codecs tracks with
      | error error => simp [script, hbuilt]
      | ok trackDecoder' =>
        simp only
        rw [script_resetRequired codecs _ hbuilt, script_resetRequired codecs _ hbuilt, ih]
    | endOfStream => rfl
    | error error h => rfl

/-- The reader of a decoder with the packets of other tracks deleted. -/
def alone (codecs : CodecRegistry A P δ α) (self : PacketDecoder A P δ α) :
    PacketDecoder A P δ α :=
  { self with format := { self.format with
      events := ownTrack codecs self.trackDecoder.trackId self.format.events } }

/-- The results of a run are those of the run on the selected track alone, the last error of
the same kind in any sense, exactly if other tracks do not mask a packet cut short. -/
theorem alone_iff (codecs : CodecRegistry A P δ α) (self : PacketDecoder A P δ α)
    (monoFrames : List α) (kind : Error → K) :
    ((decodeAll codecs (alone codecs self) monoFrames).1 = (decodeAll codecs self monoFrames).1 ∧
      (decodeAll codecs (alone codecs self) monoFrames).2.map kind =
        (decodeAll codecs self monoFrames).2.map kind) ↔
      ¬Masked kind (script codecs self.trackDecoder self.format.events).1
        (script codecs self.trackDecoder self.format.events).2 := by
  obtain ⟨⟨tracks, events⟩, trackDecoder, samples⟩ := self
  rw [alone, decodeAll_script, decodeAll_script, script_ownTrack]
  obtain ⟨hchunks, houtcome⟩ := judge_own kind (script codecs trackDecoder events).1
    (script codecs trackDecoder events).2
  exact ⟨fun h => houtcome.mp h.2, fun h => ⟨hchunks, houtcome.mpr h⟩⟩

/-- A recording cut inside its last audio packet, which a packet of video follows. -/
noncomputable def cutRecording : PacketDecoder Unit (Option (UInt32 × List ℝ)) Unit ℝ where
  format :=
    { tracks := [⟨1, some (.audio ())⟩, ⟨2, some .other⟩]
      events := [.packet ⟨1, some (8000, [1])⟩, .packet ⟨1, none⟩, .packet ⟨2, none⟩,
        .endOfStream] }
  trackDecoder := ⟨1, ()⟩
  interleavedSamples := []

/-- The recording is refused where its audio alone ends cleanly. -/
theorem cutRecording_refused :
    fromFormat plainCodecs cutRecording.format = .ok cutRecording ∧
      (decodeAll plainCodecs cutRecording []).2 = some (.ioError .unexpectedEof) ∧
      (decodeAll plainCodecs (alone plainCodecs cutRecording) []).2 = none := by
  rw [alone, cutRecording, decodeAll_script, decodeAll_script]
  exact ⟨rfl, rfl, rfl⟩

end OtherTracks
