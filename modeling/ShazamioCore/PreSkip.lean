import Mathlib
import ShazamioCore.Opus

/-!
# Frames dropped at both ends of a packet

The frames an Opus stream starts with are counted down over as many packets as it takes,
by the header's count or the container's, whichever is larger. A container that signals
no more than is left of the header's count changes nothing.
-/
namespace PreSkip

open Decode Opus

section Leading

variable {β : Type}

/-- How many items of the list at `i` lie among the first `n` of all of them. -/
def leadingOf (n : Nat) (lists : List (List β)) (i : Nat) : Nat :=
  min (lists.getD i []).length (n - (lists.take i).flatten.length)

/-- How many a run drops of the list at `i`: the larger of what is left of `n` and what the
container signals there, as far as they are there. -/
def leadingFrom (n : Nat) (starts : Nat → Nat) : List (List β) → Nat → Nat
  | [], _ => 0
  | list :: _, 0 => min (max n (starts 0)) list.length
  | list :: lists, i + 1 =>
    leadingFrom (n - min (max n (starts 0)) list.length) (fun i => starts (i + 1)) lists i

theorem leadingOf_zero (n : Nat) (list : List β) (lists : List (List β)) :
    leadingOf n (list :: lists) 0 = min n list.length := by
  simp [leadingOf, Nat.min_comm]

theorem leadingOf_succ (n : Nat) (list : List β) (lists : List (List β)) (i : Nat) :
    leadingOf n (list :: lists) (i + 1) = leadingOf (n - list.length) lists i := by
  simp [leadingOf, Nat.sub_sub]

/-- Signalling no more than is left to drop drops nothing twice. -/
theorem leadingFrom_eq (n : Nat) (starts : Nat → Nat) (lists : List (List β))
    (h : ∀ i < lists.length, starts i ≤ leadingOf n lists i) (i : Nat) (hi : i < lists.length) :
    leadingFrom n starts lists i = leadingOf n lists i := by
  induction lists generalizing n starts i with
  | nil => exact absurd hi (Nat.not_lt_zero i)
  | cons list lists ih =>
    have hfirst := h 0 (by simp)
    rw [leadingOf_zero] at hfirst
    have hmax : max n (starts 0) = n := by omega
    cases i with
    | zero => rw [leadingFrom, leadingOf_zero, hmax]
    | succ i =>
      have hleft : n - min n list.length = n - list.length := by omega
      rw [leadingFrom, leadingOf_succ, hmax, hleft]
      apply ih
      case h =>
        intro j hj
        have hnext := h (j + 1) (by simpa using hj)
        rwa [leadingOf_succ] at hnext
      case hi => simpa using hi

theorem leadingFrom_le (n : Nat) (starts : Nat → Nat) (lists : List (List β)) (i : Nat)
    (list : List β) (h : lists[i]? = some list) : leadingFrom n starts lists i ≤ list.length := by
  induction lists generalizing n starts i with
  | nil => simp at h
  | cons first lists ih =>
    cases i with
    | zero =>
      obtain rfl : first = list := by simpa using h
      rw [leadingFrom]
      exact Nat.min_le_right _ _
    | succ i =>
      rw [leadingFrom]
      exact ih _ _ i (by simpa using h)

/-- What is dropped of the lists in turn is the first `n` items of all of them. -/
theorem flatten_leading (n : Nat) (lists : List (List β)) :
    (lists.mapIdx fun i list => list.take (leadingOf n lists i)).flatten =
      lists.flatten.take n := by
  induction lists generalizing n with
  | nil => simp
  | cons list lists ih =>
    simp only [List.mapIdx_cons, List.flatten_cons, leadingOf_zero, leadingOf_succ,
      ih (n - list.length), ← List.take_eq_take_min]
    rw [List.take_append]

end Leading

variable {σ α : Type} [LinearOrder α] [F32 α]

/-- The frames `libopus` decodes the packets to, if it takes every one of them. -/
def decodes (libopus : Libopus σ α) (channelCount : Nat) :
    σ → List PacketRef → Option (List (List (Vector α channelCount)))
  | _, [] => some []
  | decoder, packet :: packets =>
    match libopus.decodeFloat channelCount decoder packet.data with
    | (_, none) => none
    | (decoder, some frames) =>
      (decodes libopus channelCount decoder packets).map fun decoded => frames :: decoded

def decodeRefs (libopus : Libopus σ α) :
    OpusDecoder σ α → List PacketRef → List (Except Error (AudioBuffer α))
  | _, [] => []
  | self, packet :: packets =>
    (decodeRef libopus self packet).2 ::
      decodeRefs libopus (decodeRef libopus self packet).1 packets

/-- The frames of a packet under the gain, less those dropped at both ends. -/
def keptFrames {channelCount : Nat} (outputGain : α) (frames : List (Vector α channelCount))
    (leading trailing : Nat) : List (Vector α channelCount) :=
  ((frames.map (Vector.map (F32.mul · outputGain))).drop leading).take
    (frames.length - leading - trailing)

def bufferOf {channelCount : Nat} (h : 0 < channelCount) (frames : List (Vector α channelCount)) :
    AudioBuffer α where
  spec := ⟨opusSampleRate, discrete channelCount h⟩
  samples := (frames.map Vector.toList).flatten
  whole_frames := ⟨frames.length, by rw [length_flatten_frames, Nat.mul_comm]; rfl⟩

theorem length_keptFrames {channelCount : Nat} (outputGain : α)
    (frames : List (Vector α channelCount)) (leading trailing : Nat) :
    (keptFrames outputGain frames leading trailing).length =
      frames.length - leading - trailing := by
  simp only [keptFrames, List.length_take, List.length_drop, List.length_map]
  omega

theorem decodeRef_decoded (libopus : Libopus σ α) (self : OpusDecoder σ α) (packet : PacketRef)
    {decoder : σ} {frames : List (Vector α self.channelCount)}
    (h : libopus.decodeFloat self.channelCount self.decoder packet.data = (decoder, some frames)) :
    decodeRef libopus self packet =
      ({ self with
          decoder := decoder
          framesToSkip := self.framesToSkip -
            min (max self.framesToSkip packet.trimStart) frames.length },
        .ok (bufferOf self.channelCount_pos (keptFrames self.outputGain frames
          (min (max self.framesToSkip packet.trimStart) frames.length)
          (min packet.trimEnd
            (frames.length - min (max self.framesToSkip packet.trimStart) frames.length))))) := by
  rw [decodeRef, h]
  rfl

/-- A container's trims, packet by packet. -/
def startOf (packets : List PacketRef) (i : Nat) : Nat :=
  (packets[i]?.map PacketRef.trimStart).getD 0

def endOf (packets : List PacketRef) (i : Nat) : Nat :=
  (packets[i]?.map PacketRef.trimEnd).getD 0

def withStarts (starts : Nat → Nat) (packets : List PacketRef) : List PacketRef :=
  packets.mapIdx fun i packet => { packet with trimStart := starts i }

/-- How many frames a packet loses at its end, given what it loses at its start. -/
def trailingOf (packets : List PacketRef) (i frameCount leading : Nat) : Nat :=
  min (endOf packets i) (frameCount - leading)

/-- What becomes of the frames of packet `i`, given what each packet loses at its start. -/
def trimmed (self : OpusDecoder σ α) (packets : List PacketRef) (leading : Nat → Nat) (i : Nat)
    (frames : List (Vector α self.channelCount)) : Except Error (AudioBuffer α) :=
  .ok (bufferOf self.channelCount_pos (keptFrames self.outputGain frames (leading i)
    (trailingOf packets i frames.length (leading i))))

/-- A run over packets that `libopus` takes: each keeps its frames less those dropped. -/
theorem decodeRefs_eq (libopus : Libopus σ α) (self : OpusDecoder σ α) (packets : List PacketRef)
    (decoded : List (List (Vector α self.channelCount)))
    (h : decodes libopus self.channelCount self.decoder packets = some decoded) :
    decodeRefs libopus self packets = decoded.mapIdx
      (trimmed self packets (leadingFrom self.framesToSkip (startOf packets) decoded)) := by
  induction packets generalizing self with
  | nil =>
    obtain rfl : [] = decoded := Option.some.inj h
    rfl
  | cons packet packets ih =>
    rw [decodes] at h
    split at h
    · cases h
    · rename_i decoder frames hdecode
      obtain ⟨rest, hrest, rfl⟩ := Option.map_eq_some_iff.mp h
      rw [decodeRefs, decodeRef_decoded libopus self packet hdecode, List.mapIdx_cons]
      congr 1
      exact ih { self with
        decoder := decoder
        framesToSkip := self.framesToSkip -
          min (max self.framesToSkip packet.trimStart) frames.length } rest hrest

section WithStarts

variable (starts : Nat → Nat) (packets : List PacketRef)

theorem startOf_withStarts (i : Nat) (hi : i < packets.length) :
    startOf (withStarts starts packets) i = starts i := by
  simp [startOf, withStarts, List.getElem?_mapIdx, List.getElem?_eq_getElem hi]

theorem endOf_withStarts (i : Nat) : endOf (withStarts starts packets) i = endOf packets i := by
  simp [endOf, withStarts, List.getElem?_mapIdx, Function.comp_def]

omit [LinearOrder α] [F32 α] in
/-- What `libopus` decodes does not depend on the trims. -/
theorem decodes_withStarts (libopus : Libopus σ α) (channelCount : Nat) (decoder : σ) :
    decodes libopus channelCount decoder (withStarts starts packets) =
      decodes libopus channelCount decoder packets := by
  induction packets generalizing starts decoder with
  | nil => rfl
  | cons packet packets ih =>
    have hcons : withStarts starts (packet :: packets) =
        { packet with trimStart := starts 0 } :: withStarts (fun i => starts (i + 1)) packets :=
      List.mapIdx_cons
    rw [hcons]
    simp only [decodes, ih]

end WithStarts

omit [LinearOrder α] [F32 α] in
theorem length_decodes (libopus : Libopus σ α) (channelCount : Nat) (decoder : σ)
    (packets : List PacketRef) (decoded : List (List (Vector α channelCount)))
    (h : decodes libopus channelCount decoder packets = some decoded) :
    decoded.length = packets.length := by
  induction packets generalizing decoder decoded with
  | nil =>
    obtain rfl : [] = decoded := Option.some.inj h
    rfl
  | cons packet packets ih =>
    rw [decodes] at h
    split at h
    · cases h
    · rename_i decoder' frames hdecode
      obtain ⟨rest, hrest, rfl⟩ := Option.map_eq_some_iff.mp h
      rw [List.length_cons, List.length_cons, ih decoder' rest hrest]

/-- A container that signals at most what is left of the pre-skip. -/
theorem decodeRefs_withStarts (libopus : Libopus σ α) (self : OpusDecoder σ α)
    (packets : List PacketRef) (decoded : List (List (Vector α self.channelCount)))
    (h : decodes libopus self.channelCount self.decoder packets = some decoded)
    (starts : Nat → Nat) (hstarts : ∀ i, starts i ≤ leadingOf self.framesToSkip decoded i) :
    decodeRefs libopus self (withStarts starts packets) =
      decoded.mapIdx (trimmed self packets (leadingOf self.framesToSkip decoded)) := by
  have hlength := length_decodes libopus _ _ packets decoded h
  rw [decodeRefs_eq libopus self (withStarts starts packets) decoded
    ((decodes_withStarts starts packets libopus _ _).trans h), List.mapIdx_eq_mapIdx_iff]
  intro i hi
  have hleading : leadingFrom self.framesToSkip (startOf (withStarts starts packets)) decoded i =
      leadingOf self.framesToSkip decoded i := by
    apply leadingFrom_eq
    case h =>
      intro j hj
      rw [startOf_withStarts starts packets j (by omega)]
      exact hstarts j
    case hi => exact hi
  rw [trimmed, trimmed, hleading, trailingOf, trailingOf, endOf_withStarts]

/-- The pre-skip is dropped once: whatever the trims, no packet loses more frames than it has,
and the containers that signal nothing and that signal each packet's share of the pre-skip
give the same output, the first frames of the stream dropped. -/
theorem preSkip_dropped_once (libopus : Libopus σ α) (self : OpusDecoder σ α)
    (packets : List PacketRef) (decoded : List (List (Vector α self.channelCount)))
    (h : decodes libopus self.channelCount self.decoder packets = some decoded) :
    (decodeRefs libopus self packets = decoded.mapIdx
        (trimmed self packets (leadingFrom self.framesToSkip (startOf packets) decoded)) ∧
      ∀ i frames, decoded[i]? = some frames →
        let leading := leadingFrom self.framesToSkip (startOf packets) decoded i
        let trailing := trailingOf packets i frames.length leading
        leading + trailing ≤ frames.length ∧
          (keptFrames self.outputGain frames leading trailing).length =
            frames.length - leading - trailing) ∧
      decodeRefs libopus self (withStarts (fun _ => 0) packets) =
        decoded.mapIdx (trimmed self packets (leadingOf self.framesToSkip decoded)) ∧
      decodeRefs libopus self (withStarts (leadingOf self.framesToSkip decoded) packets) =
        decodeRefs libopus self (withStarts (fun _ => 0) packets) ∧
      (decoded.mapIdx fun i frames => frames.take (leadingOf self.framesToSkip decoded i)).flatten =
        decoded.flatten.take self.framesToSkip := by
  have hsilent := decodeRefs_withStarts libopus self packets decoded h (fun _ => 0)
    (fun _ => Nat.zero_le _)
  have hsignalled := decodeRefs_withStarts libopus self packets decoded h
    (leadingOf self.framesToSkip decoded) (fun _ => Nat.le_refl _)
  refine ⟨⟨decodeRefs_eq libopus self packets decoded h, ?_⟩, hsilent,
    hsignalled.trans hsilent.symm, flatten_leading _ _⟩
  intro i frames hframes leading trailing
  have hleading : leading ≤ frames.length := leadingFrom_le _ _ decoded i frames hframes
  have htrailing : trailing ≤ frames.length - leading := Nat.min_le_right _ _
  exact ⟨by omega, length_keptFrames _ _ _ _⟩

/-- The count a decoder starts from is the header's. -/
theorem tryNew_framesToSkip {σ α : Type} [LinearOrder α] [F32 α] [Powf α] (libopus : Libopus σ α)
    (extraData : Option (List UInt8)) (self : OpusDecoder σ α)
    (h : tryNew libopus extraData = .ok self) :
    ∃ data head, extraData = some data ∧ (parse data : Checked (OpusHead α)).run = some (.ok head) ∧
      self.framesToSkip = head.preSkip := by
  cases extraData with
  | none => cases h
  | some data =>
    cases hrun : (parse data : Checked (OpusHead α)).run with
    | none => exact absurd hrun (parse_safe data)
    | some result =>
      have hget : (parse data : Checked (OpusHead α)).run.get
          (Option.isSome_iff_ne_none.mpr (parse_safe data)) = result := by
        simp [hrun]
      cases result with
      | error error =>
        simp only [tryNew, hget] at h
        cases h
      | ok head =>
        refine ⟨data, head, rfl, hrun, ?_⟩
        simp only [tryNew, hget] at h
        cases hnew : libopus.new opusSampleRate head.streamLayout with
        | none =>
          simp only [bind, Except.bind, hnew] at h
          cases h
        | some decoder =>
          simp only [bind, Except.bind, hnew] at h
          cases h
          rfl

section Bytewise

/-- `libopus` over packets whose bytes are the samples of one channel. -/
def bytewise : Libopus Unit ℝ where
  new _ _ := some ()
  decodeFloat channelCount _ data :=
    ((), some (data.map fun byte => Vector.replicate channelCount (byte.toNat : ℝ)))

/-- A decoder that has three frames yet to drop. -/
def threeToSkip : OpusDecoder Unit ℝ := ⟨(), 1, 1, 3, Nat.one_pos⟩

/-- A packet of two frames and one of three that loses one at its end. -/
def twoPackets : List PacketRef := [⟨[1, 2], 0, 0⟩, ⟨[3, 4, 5], 0, 1⟩]

def twoDecoded : List (List (Vector ℝ 1)) :=
  [[1, 2], [3, 4, 5]].map fun data : List UInt8 =>
    data.map fun byte => Vector.replicate 1 (byte.toNat : ℝ)

/-- The pre-skip ends within the second packet, whoever signals it. -/
theorem preSkip_dropped_once_three :
    decodes bytewise threeToSkip.channelCount threeToSkip.decoder twoPackets = some twoDecoded ∧
      decodeRefs bytewise threeToSkip (withStarts (leadingOf 3 twoDecoded) twoPackets) =
        decodeRefs bytewise threeToSkip (withStarts (fun _ => 0) twoPackets) :=
  ⟨rfl, (preSkip_dropped_once bytewise threeToSkip twoPackets twoDecoded rfl).2.2.1⟩

end Bytewise

end PreSkip
