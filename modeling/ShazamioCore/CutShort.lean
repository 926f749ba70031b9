import Mathlib
import ShazamioCore.DecodeScript

/-!
# A stream cut short

A run that ends without an error has handed out all the audio there is: the reader came to
an end, the decoder of every reset was built, and every packet of the selected track was
decoded, save perhaps the last one the reader handed over, failing with an I/O error.
-/
namespace CutShort

open Decode DecodeScript

variable {A P δ α : Type}

/-- The reader comes to an end, or runs out, and every reset before that builds a decoder. -/
def EndsCleanly (codecs : CodecRegistry A P δ α) : List (Event A P) → Prop
  | [] => True
  | .endOfStream :: _ => True
  | .error error _ :: _ => error = .ioError .unexpectedEof
  | .resetRequired tracks :: events =>
    (∃ trackDecoder, decoderFor codecs tracks = .ok trackDecoder) ∧ EndsCleanly codecs events
  | .packet _ :: events => EndsCleanly codecs events

/-- None of the first items has failed, and all that may follow is one cut by an I/O error. -/
def LastCut (front items : List (Item α)) : Prop :=
  (∀ error, Item.failed error ∉ front) ∧
    (items = front ∨ ∃ kind, items = front ++ [.failed (.ioError kind)])

theorem isUnexpectedEof_iff (error : Error) :
    isUnexpectedEof error = true ↔ error = .ioError .unexpectedEof := by
  unfold isUnexpectedEof
  split
  · simp
  · simp_all

theorem LastCut.cons {front items : List (Item α)} (h : LastCut front items) (item : Item α)
    (hitem : ∀ error, item ≠ .failed error) : LastCut (item :: front) (item :: items) := by
  obtain ⟨hfront, hitems⟩ := h
  refine ⟨fun error => by simp [hfront error, (hitem error).symm], ?_⟩
  rcases hitems with rfl | ⟨kind, rfl⟩
  · exact .inl rfl
  · exact .inr ⟨kind, rfl⟩

theorem LastCut.of_cons {front items : List (Item α)} {item : Item α}
    (h : LastCut front (item :: items)) (hitem : ∀ error, item ≠ .failed error) :
    ∃ rest, front = item :: rest ∧ LastCut rest items := by
  obtain ⟨hfront, hitems⟩ := h
  cases front with
  | nil =>
    rcases hitems with hitems | ⟨kind, hitems⟩
    · cases hitems
    · cases hitems
      exact absurd rfl (hitem _)
  | cons first rest =>
    have hrest : ∀ error, Item.failed error ∉ rest := fun error hmem =>
      hfront error (List.mem_cons_of_mem _ hmem)
    rcases hitems with hitems | ⟨kind, hitems⟩
    · cases hitems
      exact ⟨_, rfl, hrest, .inl rfl⟩
    · cases hitems
      exact ⟨_, rfl, hrest, .inr ⟨kind, rfl⟩⟩

/-- An item cut by an I/O error stands alone. -/
theorem LastCut.of_failed {front items : List (Item α)} {error : Error}
    (h : LastCut front (.failed error :: items)) :
    front = [] ∧ items = [] ∧ ∃ kind, error = .ioError kind := by
  obtain ⟨hfront, hitems⟩ := h
  cases front with
  | nil =>
    rcases hitems with hitems | ⟨kind, hitems⟩
    · cases hitems
    · cases hitems
      exact ⟨rfl, rfl, kind, rfl⟩
  | cons first rest =>
    have hfirst : first = .failed error := by
      rcases hitems with hitems | ⟨kind, hitems⟩
      · exact (List.cons.inj hitems).1.symm
      · exact (List.cons.inj hitems).1.symm
    exact absurd (hfirst ▸ List.mem_cons_self) (hfront error)

theorem failure_none (stop : Stop) : stop.failure = none ↔ stop = .ended := by
  cases stop with
  | ended => exact iff_of_true rfl rfl
  | refused error => exact iff_of_false (by simp [Stop.failure]) (by simp)

theorem judge_cons_none (item : Item α) (items : List (Item α)) (stop : Stop)
    (hitem : ∀ error, item ≠ .failed error) (chunks : List (AudioSpec × List α)) :
    judge (item :: items) stop = (chunks, none) ↔
      ∃ later, judge items stop = (later, none) ∧ chunks = item.chunk?.toList ++ later := by
  cases item with
  | skipped => simp [judge, Item.chunk?]
  | decoded chunk =>
    change (chunk :: (judge items stop).1, (judge items stop).2) = (chunks, none) ↔ _
    constructor
    · intro h
      obtain ⟨rfl, hnone⟩ := Prod.mk.inj h
      exact ⟨(judge items stop).1, Prod.ext rfl hnone, rfl⟩
    · rintro ⟨later, hlater, rfl⟩
      rw [hlater]
      rfl
  | failed error => exact absurd rfl (hitem error)

theorem judge_failed_none (error : Error) (items : List (Item α)) (stop : Stop)
    (chunks : List (AudioSpec × List α)) :
    judge (.failed error :: items) stop = (chunks, none) ↔
      (∃ kind, error = .ioError kind) ∧ items = [] ∧ stop = .ended ∧ chunks = [] := by
  by_cases hio : ∃ kind, error = .ioError kind
  · obtain ⟨kind, rfl⟩ := hio
    cases items with
    | nil =>
      change ([], stop.failure) = (chunks, none) ↔ _
      rw [Prod.mk.injEq, failure_none]
      simp [and_comm, eq_comm]
    | cons next items => simp [judge]
  · rw [judge_failed_of_not_io error items stop hio]
    simp [hio]

/-- What is judged to end without an error. -/
theorem judge_ended (items : List (Item α)) (stop : Stop) (chunks : List (AudioSpec × List α)) :
    judge items stop = (chunks, none) ↔
      stop = .ended ∧ ∃ front, LastCut front items ∧ chunks = chunksOf front := by
  induction items generalizing chunks with
  | nil =>
    rw [judge, Prod.mk.injEq, failure_none]
    constructor
    · rintro ⟨rfl, rfl⟩
      exact ⟨rfl, [], ⟨fun _ => List.not_mem_nil, .inl rfl⟩, rfl⟩
    · rintro ⟨rfl, front, ⟨-, hitems⟩, rfl⟩
      rcases hitems with rfl | ⟨kind, hitems⟩
      · exact ⟨rfl, rfl⟩
      · exact absurd hitems (by simp)
  | cons item items ih =>
    by_cases hfailed : ∃ error, item = .failed error
    · obtain ⟨error, rfl⟩ := hfailed
      rw [judge_failed_none]
      constructor
      · rintro ⟨⟨kind, rfl⟩, rfl, rfl, rfl⟩
        exact ⟨rfl, [], ⟨fun _ => List.not_mem_nil, .inr ⟨kind, rfl⟩⟩, rfl⟩
      · rintro ⟨rfl, front, hcut, rfl⟩
        obtain ⟨rfl, rfl, hkind⟩ := hcut.of_failed
        exact ⟨hkind, rfl, rfl, rfl⟩
    · have hitem : ∀ error, item ≠ .failed error := fun error h => hfailed ⟨error, h⟩
      rw [judge_cons_none item items stop hitem]
      constructor
      · rintro ⟨later, hlater, rfl⟩
        obtain ⟨rfl, front, hcut, rfl⟩ := (ih later).mp hlater
        exact ⟨rfl, item :: front, hcut.cons item hitem, (chunksOf_cons item front).symm⟩
      · rintro ⟨rfl, front, hcut, rfl⟩
        obtain ⟨rest, rfl, hrest⟩ := hcut.of_cons hitem
        exact ⟨chunksOf rest, (ih _).mpr ⟨rfl, rest, hrest, rfl⟩, chunksOf_cons item rest⟩

variable [LinearOrder α] [F32 α]

/-- The script ends where the reader does. -/
theorem script_ended (codecs : CodecRegistry A P δ α) (trackDecoder : TrackDecoder δ)
    (events : List (Event A P)) :
    (script codecs trackDecoder events).2 = .ended ↔ EndsCleanly codecs events := by
  induction events generalizing trackDecoder with
  | nil => exact iff_of_true rfl trivial
  | cons event events ih =>
    cases event with
    | packet packet =>
      by_cases htrack : packet.trackId = trackDecoder.trackId
      · cases hdecode : codecs.decode trackDecoder.decoder packet.data with
        | mk decoder result =>
          rw [script_packet codecs events htrack hdecode]
          exact ih _
      · rw [script_skipped codecs events htrack]
        exact ih trackDecoder
    | resetRequired tracks =>
      rw [EndsCleanly]
      cases hbuilt : decoderFor codecs tracks with
      | error error => simp [script, hbuilt]
      | ok trackDecoder' =>
        rw [script_resetRequired codecs events hbuilt, ih]
        simp
    | endOfStream => exact iff_of_true rfl trivial
    | error error h =>
      rw [script, EndsCleanly, ← isUnexpectedEof_iff]
      cases isUnexpectedEof error with
      | true => simp
      | false => simp

/-- A run ends without an error exactly if the reader comes to an end, every reset before it
builds a decoder, and no packet fails but the last of all, with an I/O error. What it has
handed out then is every packet of the selected track decoded, in order. -/
theorem audio_kept (codecs : CodecRegistry A P δ α) (self : PacketDecoder A P δ α)
    (monoFrames : List α) (chunks : List (AudioSpec × List α)) :
    decodeAll codecs self monoFrames = (chunks, none) ↔
      EndsCleanly codecs self.format.events ∧
        ∃ front, LastCut front (script codecs self.trackDecoder self.format.events).1 ∧
          chunks = chunksOf front := by
  obtain ⟨⟨tracks, events⟩, trackDecoder, samples⟩ := self
  rw [decodeAll_script, judge_ended, script_ended]

end CutShort
