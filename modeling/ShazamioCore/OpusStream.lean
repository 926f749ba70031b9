import Mathlib
import ShazamioCore.PreSkip
import ShazamioCore.Recognition

/-!
# An Opus stream, heard

What is heard of a chain of Opus streams: of each, all the frames `libopus` decodes, under its
gain, less its own pre-skip at the start and the container's trim at the end, mixed down one by
one. Where the packets are cut and whether the container signals the pre-skip too is not heard.
-/
namespace OpusStream

open Decode DecodeScript ChainedStream Opus PreSkip Recognition

section Kept

variable {β : Type}

/-- What is left of each list: less its part of the first `n` items, and less what is cut off
its end. -/
def kept (n : Nat) (ends : Nat → Nat) (lists : List (List β)) : List (List β) :=
  lists.mapIdx fun i list =>
    (list.drop (leadingOf n lists i)).take
      (list.length - leadingOf n lists i - min (ends i) (list.length - leadingOf n lists i))

theorem kept_cons (n : Nat) (ends : Nat → Nat) (list : List β) (lists : List (List β)) :
    kept n ends (list :: lists) =
      (list.drop n).take (list.length - n - min (ends 0) (list.length - n)) ::
        kept (n - list.length) (fun i => ends (i + 1)) lists := by
  have hdrop : list.drop (min n list.length) = list.drop n := by
    rcases le_total n list.length with hle | hge
    · rw [Nat.min_eq_left hle]
    · rw [Nat.min_eq_right hge, List.drop_length, List.drop_eq_nil_of_le hge]
  have hlength : list.length - min n list.length = list.length - n := by omega
  simp only [kept, List.mapIdx_cons, leadingOf_zero, leadingOf_succ, hdrop, hlength]

theorem leadingOf_map {γ : Type} (f : β → γ) (n : Nat) (lists : List (List β)) (i : Nat) :
    leadingOf n (lists.map (List.map f)) i = leadingOf n lists i := by
  have hlist : ((lists.map (List.map f)).getD i []).length = (lists.getD i []).length := by
    rw [List.getD_eq_getElem?_getD, List.getD_eq_getElem?_getD, List.getElem?_map]
    cases lists[i]? with
    | none => rfl
    | some list => exact List.length_map f
  rw [leadingOf, leadingOf, hlist, ← List.map_take, ← List.map_flatten, List.length_map]

/-- What is cut off the end of a list is cut off its second part, if that has it all. -/
theorem rdrop_append (a b : List β) (n : Nat) (h : a = [] ∨ n ≤ b.length) :
    (a ++ b).rdrop n = a ++ b.rdrop n := by
  rcases h with rfl | hle
  · rw [List.nil_append, List.nil_append]
  · rw [List.rdrop, List.rdrop, List.length_append, Nat.add_sub_assoc hle,
      List.take_length_add_append]

/-- Where only the last list is cut off at its end, what is left is what all of them are put
together, less the first items and the last. -/
theorem flatten_kept (n : Nat) (ends : Nat → Nat) (lists : List (List β))
    (hends : ∀ i, i + 1 < lists.length → ends i = 0)
    (hlast : ∀ list, lists.getLast? = some list → ends (lists.length - 1) ≤ list.length) :
    (kept n ends lists).flatten = (lists.flatten.drop n).rdrop (ends (lists.length - 1)) := by
  induction lists generalizing n ends with
  | nil => simp [kept, List.rdrop]
  | cons list lists ih =>
    rw [kept_cons, List.flatten_cons]
    cases lists with
    | nil =>
      have hnone : (kept (n - list.length) (fun i => ends (i + 1)) []).flatten =
          ([] : List β) := rfl
      rw [hnone, List.append_nil, List.flatten_singleton, List.rdrop, List.length_drop]
      congr 1
      change _ = list.length - n - ends 0
      omega
    | cons second rest =>
      have hfirst : ends 0 = 0 := hends 0 (by simp)
      have hwhole : (list.drop n).take (list.length - n - min (ends 0) (list.length - n)) =
          list.drop n := by
        apply List.take_of_length_le
        rw [List.length_drop]
        omega
      have hlater : ends (second :: rest).length ≤ (second :: rest).flatten.length := by
        have hmem := List.getLast?_eq_some_getLast (List.cons_ne_nil second rest)
        have hend := hlast _ (by rw [List.getLast?_cons_cons, hmem])
        refine (show ends (second :: rest).length ≤ _ from hend).trans ?_
        rw [List.length_flatten]
        exact List.le_sum_of_mem (List.mem_map_of_mem (List.mem_of_getLast? hmem))
      have hsplit : list.drop n = [] ∨
          ends (second :: rest).length ≤
            ((second :: rest).flatten.drop (n - list.length)).length := by
        rcases le_total list.length n with hle | hge
        · exact Or.inl (List.drop_eq_nil_of_le hle)
        · right
          rwa [Nat.sub_eq_zero_of_le hge, List.drop_zero]
      have hrest := ih (n - list.length) (fun i => ends (i + 1))
        (fun i hi => hends (i + 1) (by simpa using hi))
        (fun last hmem => hlast last (by rw [List.getLast?_cons_cons, hmem]))
      have hflatten : (list :: second :: rest).flatten = list ++ (second :: rest).flatten :=
        List.flatten_cons
      rw [hwhole, hrest, hflatten, List.drop_append]
      exact (rdrop_append _ _ _ hsplit).symm

end Kept

variable {σ α : Type} [LinearOrder α] [F32 α]

/-- A frame mixed down: each channel's share added in turn. -/
def monoFrame {channelCount : Nat} (frame : Vector α channelCount) : α :=
  DecodeScript.monoFrame channelCount frame.toList

theorem chunkOf_bufferOf {channelCount : Nat} (hpos : 0 < channelCount)
    (frames : List (Vector α channelCount)) :
    chunkOf (bufferOf hpos frames) =
      (⟨opusSampleRate, discrete channelCount hpos⟩, frames.map monoFrame) := by
  have hlength : ∀ frame ∈ frames.map Vector.toList, frame.length = channelCount := by
    intro frame hframe
    obtain ⟨_, -, rfl⟩ := List.mem_map.mp hframe
    exact Vector.length_toList
  have hchunk : chunkOf (bufferOf hpos frames) = (⟨opusSampleRate, discrete channelCount hpos⟩,
      (LoopRules.rows channelCount (frames.map Vector.toList).flatten).map
        (DecodeScript.monoFrame channelCount)) := rfl
  rw [hchunk, LoopRules.rows_flatten hpos _ hlength, List.map_map]
  rfl

def ownPackets {P : Type} (trackId : UInt32) (packets : List (Packet P)) : List P :=
  (packets.filter (·.trackId = trackId)).map Packet.data

section Script

variable [Powf α] (libopus : Libopus σ α)

/-- The script of a track's packets is what they come to one after another. -/
theorem script_opus (trackId : UInt32) (self : OpusDecoder σ α)
    (packets : List (Packet PacketRef)) :
    chunksOf (script (opusCodecs libopus) ⟨trackId, self⟩ (packets.map .packet)).1 =
        (decodeRefs libopus self (ownPackets trackId packets)).filterMap
          (fun result => (itemOf result).chunk?) ∧
      ∀ error, .failed error ∈
          (script (opusCodecs libopus) ⟨trackId, self⟩ (packets.map .packet)).1 →
        .error error ∈ decodeRefs libopus self (ownPackets trackId packets) := by
  induction packets generalizing self with
  | nil => exact ⟨rfl, fun _ h => absurd h List.not_mem_nil⟩
  | cons packet packets ih =>
    rw [List.map_cons]
    by_cases htrack : packet.trackId = trackId
    · have hown : ownPackets trackId (packet :: packets) =
          packet.data :: ownPackets trackId packets := by
        simp [ownPackets, htrack]
      obtain ⟨hchunks, hfailed⟩ := ih (decodeRef libopus self packet.data).1
      have hdecode : (opusCodecs libopus).decode self packet.data =
          ((decodeRef libopus self packet.data).1, (decodeRef libopus self packet.data).2) := rfl
      rw [script_packet (opusCodecs libopus) _ htrack hdecode, hown, decodeRefs]
      constructor
      · rw [chunksOf_cons, hchunks, List.filterMap_cons]
        cases (itemOf (decodeRef libopus self packet.data).2).chunk? with
        | none => rfl
        | some chunk => rfl
      · intro error herror
        rcases List.mem_cons.mp herror with hfirst | hrest
        · cases hresult : (decodeRef libopus self packet.data).2 with
          | error error' =>
            rw [hresult] at hfirst
            cases hfirst
            exact List.mem_cons_self
          | ok audioBuffer =>
            rw [hresult] at hfirst
            cases hfirst
        · exact List.mem_cons_of_mem _ (hfailed error hrest)
    · have hown : ownPackets trackId (packet :: packets) = ownPackets trackId packets := by
        simp [ownPackets, htrack]
      obtain ⟨hchunks, hfailed⟩ := ih self
      rw [script_skipped (opusCodecs libopus) _ htrack, hown]
      constructor
      · rw [chunksOf_cons, hchunks]
        rfl
      · intro error herror
        rcases List.mem_cons.mp herror with hfirst | hrest
        · cases hfirst
        · exact hfailed error hrest

end Script

/-- A link of Opus: the decoder opened on the header of its track, the frames `libopus` decodes
each packet of the track to, and trims the container may signal: at the start no more than what
is left of the pre-skip, at the end frames of the last packet. -/
structure OpusLink [Powf α] (libopus : Libopus σ α) where
  link : Link (Option (List UInt8)) PacketRef
  trackId : UInt32
  opened : OpusDecoder σ α
  built : decoderFor (opusCodecs libopus) link.tracks = .ok ⟨trackId, opened⟩
  decoded : List (List (Vector α opened.channelCount))
  decodes : PreSkip.decodes libopus opened.channelCount opened.decoder
    (ownPackets trackId link.packets) = some decoded
  nonempty : decoded ≠ []
  starts : ∀ i < decoded.length,
    startOf (ownPackets trackId link.packets) i ≤ leadingOf opened.framesToSkip decoded i
  ends : ∀ i, i + 1 < decoded.length → endOf (ownPackets trackId link.packets) i = 0
  last : ∀ frames, decoded.getLast? = some frames →
    endOf (ownPackets trackId link.packets) (decoded.length - 1) ≤ frames.length

namespace OpusLink

variable [Powf α] {libopus : Libopus σ α} (self : OpusLink libopus)

def gained (frame : Vector α self.opened.channelCount) : Vector α self.opened.channelCount :=
  frame.map (F32.mul · self.opened.outputGain)

def trimEnd : Nat := endOf (ownPackets self.trackId self.link.packets) (self.decoded.length - 1)

/-- All frames decoded, less the pre-skip at the start and the trim at the end, in mono. -/
def heard : List α :=
  (((self.decoded.flatten.map self.gained).drop self.opened.framesToSkip).rdrop
    self.trimEnd).map monoFrame

def spec : AudioSpec :=
  ⟨opusSampleRate, discrete self.opened.channelCount self.opened.channelCount_pos⟩

/-- What the packets come to, each less its share of the pre-skip and its trim. -/
theorem decodeRefs_kept :
    decodeRefs libopus self.opened (ownPackets self.trackId self.link.packets) =
    (kept self.opened.framesToSkip (endOf (ownPackets self.trackId self.link.packets))
      (self.decoded.map (List.map self.gained))).map fun frames =>
        .ok (bufferOf self.opened.channelCount_pos frames) := by
  rw [decodeRefs_eq libopus self.opened _ self.decoded self.decodes, kept]
  apply List.ext_getElem?
  intro i
  simp only [List.getElem?_mapIdx, List.getElem?_map, Option.map_map, leadingOf_map]
  cases hframes : self.decoded[i]? with
  | none => rfl
  | some frames =>
    obtain ⟨hi, -⟩ := List.getElem?_eq_some_iff.mp hframes
    have hleading := leadingFrom_eq self.opened.framesToSkip
      (startOf (ownPackets self.trackId self.link.packets)) self.decoded self.starts i hi
    simp only [Option.map_some, Function.comp_apply, trimmed, trailingOf, keptFrames, hleading,
      List.length_map]
    rfl

theorem chunks_eq : self.link.chunks (opusCodecs libopus) =
    (kept self.opened.framesToSkip (endOf (ownPackets self.trackId self.link.packets))
      (self.decoded.map (List.map self.gained))).map fun frames =>
        (self.spec, frames.map monoFrame) := by
  rw [Link.chunks, Link.items_eq _ _ self.built, Link.events,
    (script_opus libopus self.trackId self.opened self.link.packets).1, decodeRefs_kept,
    List.filterMap_map]
  simp only [Function.comp_def, itemOf, Item.chunk?, chunkOf_bufferOf, List.filterMap_eq_map']
  rfl

theorem plays : self.link.Plays (opusCodecs libopus) where
  built := ⟨_, self.built⟩
  error_free error herror := by
    rw [Link.items_eq _ _ self.built, Link.events] at herror
    have hfailed := (script_opus libopus self.trackId self.opened self.link.packets).2 error herror
    rw [decodeRefs_kept] at hfailed
    obtain ⟨_, -, hok⟩ := List.mem_map.mp hfailed
    cases hok
  nonempty := by
    have hnonempty := self.nonempty
    rw [chunks_eq, Ne, List.map_eq_nil_iff, kept, List.mapIdx_eq_nil_iff, List.map_eq_nil_iff]
    exact hnonempty

theorem heard_eq : self.heard = (self.link.chunks (opusCodecs libopus)).flatMap Prod.snd := by
  have hlength : (self.decoded.map (List.map self.gained)).length = self.decoded.length :=
    List.length_map _
  have hflatten := flatten_kept self.opened.framesToSkip
    (endOf (ownPackets self.trackId self.link.packets)) (self.decoded.map (List.map self.gained))
    (by rw [hlength]; exact self.ends)
    (by
      intro frames hframes
      rw [List.getLast?_map, Option.map_eq_some_iff] at hframes
      obtain ⟨frames', hframes', rfl⟩ := hframes
      rw [hlength, List.length_map]
      exact self.last frames' hframes')
  rw [chunks_eq, List.flatMap_map, heard, List.map_flatten, trimEnd, ← hlength, ← hflatten,
    List.map_flatten, List.flatMap_def]

end OpusLink

/-- A chain of Opus links of as many channels is heard as what each of them holds, one after
the other, at 48 kHz: each loses its own pre-skip once and its own trim, and nothing else. -/
theorem chain_heard [Powf α] (libopus : Libopus σ α) (first : OpusLink libopus)
    (links : List (OpusLink libopus))
    (hchannels : ∀ link ∈ links, link.opened.channelCount = first.opened.channelCount) :
    hearAll (opusCodecs libopus) (.ok (chain first.link (links.map OpusLink.link))) = .ok {
      rate := 48000
      frames := (first :: links).flatMap OpusLink.heard
      failure := none } := by
  have hplays : ∀ link ∈ first.link :: links.map OpusLink.link,
      link.Plays (opusCodecs libopus) := by
    rw [← List.map_cons (f := OpusLink.link), List.forall_mem_map]
    exact fun link _ => link.plays
  have hspec : ∀ link ∈ first.link :: links.map OpusLink.link,
      ∀ chunk ∈ link.chunks (opusCodecs libopus), chunk.1 = first.spec := by
    rw [← List.map_cons (f := OpusLink.link), List.forall_mem_map]
    intro link hlink chunk hchunk
    rw [OpusLink.chunks_eq] at hchunk
    obtain ⟨frames, -, rfl⟩ := List.mem_map.mp hchunk
    rcases List.mem_cons.mp hlink with rfl | hmem
    · rfl
    · simp only [OpusLink.spec, discrete, hchannels link hmem]
  have hframes : (first.link :: links.map OpusLink.link).flatMap
      (fun link => (link.chunks (opusCodecs libopus)).flatMap Prod.snd) =
        (first :: links).flatMap OpusLink.heard := by
    rw [← List.map_cons (f := OpusLink.link), List.flatMap_map]
    exact List.flatMap_congr fun link _ => link.heard_eq.symm
  have hall := hearAll_chain (opusCodecs libopus) first.link (links.map OpusLink.link) hplays
    first.spec hspec
  rw [hall, hframes]
  rfl

section Bytewise

/-- A header of one channel that has three frames skipped. -/
def threeHead : List UInt8 := opusHeadMagic ++ [1, 1, 3, 0, 0x80, 0xbb, 0, 0, 0, 0, 0]

/-- Five frames in two packets, with one of another track between them, the last cut off. -/
def fiveFrames : Link (Option (List UInt8)) PacketRef where
  tracks := [⟨9, some .other⟩, ⟨5, some (.audio (some threeHead))⟩]
  packets := [⟨5, ⟨[1, 2], 0, 0⟩⟩, ⟨9, ⟨[8], 0, 0⟩⟩, ⟨5, ⟨[3, 4, 5], 1, 1⟩⟩]

/-- Four frames in one packet, whose container signals the skip too. -/
def fourFrames : Link (Option (List UInt8)) PacketRef where
  tracks := [⟨7, some (.audio (some threeHead))⟩]
  packets := [⟨7, ⟨[6, 7, 8, 9], 3, 0⟩⟩]

noncomputable def bytesDecoded (packets : List (List UInt8)) : List (List (Vector ℝ 1)) :=
  packets.map fun data => data.map fun byte => Vector.replicate 1 (byte.toNat : ℝ)

theorem twoLinks_heard : ∃ first second : OpusLink bytewise,
    first.link = fiveFrames ∧ second.link = fourFrames ∧
      first.heard.length = 1 ∧ second.heard.length = 1 ∧
      hearAll (opusCodecs bytewise) (.ok (chain first.link [second.link])) = .ok {
        rate := 48000
        frames := first.heard ++ second.heard
        failure := none } := by
  obtain ⟨gain, hopened⟩ : ∃ gain, tryNew bytewise (some threeHead) =
      .ok ⟨(), 1, gain, 3, Nat.one_pos⟩ := ⟨_, rfl⟩
  let first : OpusLink bytewise := {
    link := fiveFrames
    trackId := 5
    opened := ⟨(), 1, gain, 3, Nat.one_pos⟩
    built := by
      change (tryNew bytewise (some threeHead)).map _ = _
      rw [hopened]
      rfl
    decoded := bytesDecoded [[1, 2], [3, 4, 5]]
    decodes := rfl
    nonempty := by simp [bytesDecoded]
    starts := by
      intro i hi
      obtain rfl | rfl : i = 0 ∨ i = 1 := by
        simp only [bytesDecoded, List.length_map, List.length_cons, List.length_nil] at hi
        omega
      · exact Nat.zero_le _
      · change 1 ≤ min 3 (3 - 2)
        decide
    ends := by
      intro i hi
      obtain rfl : i = 0 := by
        simp only [bytesDecoded, List.length_map, List.length_cons, List.length_nil] at hi
        omega
      rfl
    last := by
      intro frames hframes
      cases hframes
      change 1 ≤ 3
      decide }
  let second : OpusLink bytewise := {
    link := fourFrames
    trackId := 7
    opened := ⟨(), 1, gain, 3, Nat.one_pos⟩
    built := by
      change (tryNew bytewise (some threeHead)).map _ = _
      rw [hopened]
      rfl
    decoded := bytesDecoded [[6, 7, 8, 9]]
    decodes := rfl
    nonempty := by simp [bytesDecoded]
    starts := by
      intro i hi
      obtain rfl : i = 0 := by
        simp only [bytesDecoded, List.length_map, List.length_cons, List.length_nil] at hi
        omega
      change 3 ≤ min 4 (3 - 0)
      decide
    ends := by
      intro i hi
      simp only [bytesDecoded, List.length_map, List.length_cons, List.length_nil] at hi
      omega
    last := by
      intro frames hframes
      cases hframes
      exact Nat.zero_le _ }
  have hheard := chain_heard bytewise first [second] (by simp [first, second])
  refine ⟨first, second, rfl, rfl, ?_, ?_, ?_⟩
  · simp [OpusLink.heard, first, OpusLink.trimEnd, bytesDecoded, List.rdrop]
    decide
  · simp [OpusLink.heard, second, OpusLink.trimEnd, bytesDecoded, List.rdrop]
    decide
  · rw [List.flatMap_cons, List.flatMap_singleton] at hheard
    exact hheard

end Bytewise

end OpusStream
