import Mathlib
import ShazamioCore.Resample

/-!
# The stream and the whole clip

The whole clip is resampled chunk by chunk with all its frames at hand: full chunks while
more than one is left, what remains in one partial call, then silence until enough has
been produced; the delay is dropped from the front at the end. A stream cut anywhere
comes to the same samples, or to the same error.
-/
namespace WholeClip

open Resample

variable {σ α β E : Type}

/-- Full chunks while more than one is left: the resampler's state, what it has produced,
and the frames that remain. -/
def consume (r : Resampler σ α β E) (s : σ) (produced frames : List α) :
    Except E (σ × List α × List α) :=
  if 1024 < frames.length then
    match r.processIntoBuffer s (frames.take 1024) none with
    | .error e => .error e
    | .ok (s, _, new) => consume r s (produced ++ new) (frames.drop 1024)
  else .ok (s, produced, frames)
termination_by frames.length
decreasing_by
  rw [List.length_drop]
  omega

/-- Silence until what is produced, less the delay, is long enough. -/
def pump (r : Resampler σ α β E) (count : Nat) : Nat → σ → List α → Option (Except E (List α))
  | 0, _, _ => none
  | fuel + 1, s, produced =>
    if produced.length - r.outputDelay < count then
      match r.processIntoBuffer s [] (some 0) with
      | .error e => some (.error e)
      | .ok (s, _, new) => pump r count fuel s (produced ++ new)
    else some (.ok produced)

/-- The frames that remain, in one partial call if there are any. -/
def consumeRest (r : Resampler σ α β E) (s : σ) (produced rest : List α) :
    Except E (σ × List α) :=
  if rest ≠ [] then
    (r.processIntoBuffer s rest (some rest.length)).map fun (s, _, new) => (s, produced ++ new)
  else .ok (s, produced)

section Consume

variable (r : Resampler σ α β E)

theorem consume_small (s : σ) (produced frames : List α) (h : frames.length ≤ chunkFrames) :
    consume r s produced frames = .ok (s, produced, frames) := by
  have hsmall : ¬1024 < frames.length := Nat.not_lt.mpr h
  rw [consume, if_neg hsmall]

theorem consume_step (s : σ) (produced frames : List α) (h : chunkFrames < frames.length) :
    consume r s produced frames =
      (r.processIntoBuffer s (frames.take chunkFrames) none).bind fun called =>
        consume r called.1 (produced ++ called.2.2) (frames.drop chunkFrames) := by
  have hlarge : 1024 < frames.length := h
  rw [consume, if_pos hlarge, chunkFrames]
  cases r.processIntoBuffer s (frames.take 1024) none with
  | error e => rfl
  | ok called => rfl

/-- What remains is at most a chunk. -/
theorem consume_rest (s : σ) (produced frames : List α) (s' : σ) (produced' rest : List α)
    (h : consume r s produced frames = .ok (s', produced', rest)) :
    rest.length ≤ chunkFrames := by
  by_cases hsmall : frames.length ≤ chunkFrames
  · rw [consume_small r s produced frames hsmall] at h
    cases h
    exact hsmall
  · rw [consume_step r s produced frames (by omega)] at h
    cases hcall : r.processIntoBuffer s (frames.take chunkFrames) none with
    | error e =>
      rw [hcall] at h
      cases h
    | ok called =>
      rw [hcall] at h
      exact consume_rest called.1 (produced ++ called.2.2) (frames.drop chunkFrames) s' produced'
        rest h
termination_by frames.length
decreasing_by exact drop_chunk_lt (by omega)

/-- More frames may be held back until the chunks before them are through. -/
theorem consume_append (s : σ) (produced frames more : List α) :
    consume r s produced (frames ++ more) =
      (consume r s produced frames).bind fun consumed =>
        consume r consumed.1 consumed.2.1 (consumed.2.2 ++ more) := by
  by_cases hsmall : frames.length ≤ chunkFrames
  · rw [consume_small r s produced frames hsmall]
    rfl
  · have hlarge : chunkFrames < (frames ++ more).length := by
      rw [List.length_append]
      omega
    rw [consume_step r s produced frames (by omega), consume_step r s produced _ hlarge,
      List.take_append_of_le_length (by omega), List.drop_append_of_le_length (by omega)]
    cases hcall : r.processIntoBuffer s (frames.take chunkFrames) none with
    | error e => rfl
    | ok called =>
      exact consume_append called.1 (produced ++ called.2.2) (frames.drop chunkFrames) more
termination_by frames.length
decreasing_by exact drop_chunk_lt (by omega)

end Consume

section Termination

/-- What a number of silent calls in a row produce together. -/
def silence (r : Resampler σ α β E) : Nat → σ → Except E (List α)
  | 0, _ => .ok []
  | m + 1, s => do
    let (s, _, new) ← r.processIntoBuffer s [] (some 0)
    let later ← silence r m s
    return new ++ later

/-- From any state, enough silence makes the resampler produce a frame or fail. -/
def EventuallyProduces (r : Resampler σ α β E) : Prop :=
  ∀ s, ∃ m, silence r m s ≠ .ok []

/-- More fuel than enough changes nothing. -/
theorem pump_of_le (r : Resampler σ α β E) (count : Nat) {fuel more : Nat} (hle : fuel ≤ more)
    {s : σ} {produced : List α} {result : Except E (List α)}
    (h : pump r count fuel s produced = some result) :
    pump r count more s produced = some result := by
  induction fuel generalizing more s produced with
  | zero => cases h
  | succ fuel ih =>
    obtain ⟨more, rfl⟩ : ∃ m, more = m + 1 := ⟨more - 1, by omega⟩
    rw [pump] at h ⊢
    split
    · rename_i hshort
      rw [if_pos hshort] at h
      split at h
      · exact h
      · exact ih (by omega) h
    · rename_i hlong
      rwa [if_neg hlong] at h

theorem pump_length (r : Resampler σ α β E) (count fuel : Nat) (s : σ)
    (produced produced' : List α) (h : pump r count fuel s produced = some (.ok produced')) :
    count ≤ produced'.length - r.outputDelay := by
  induction fuel generalizing s produced with
  | zero => cases h
  | succ fuel ih =>
    rw [pump] at h
    split at h
    · split at h
      · cases h
      · exact ih _ _ h
    · cases h
      omega

/-- A resampler that produces something within `m` silent calls gets past where it stands. -/
theorem pump_of_silence (r : Resampler σ α β E) (count m : Nat) (s : σ) (produced : List α)
    (hm : silence r m s ≠ .ok [])
    (hlater : ∀ s' produced', produced.length < produced'.length →
      ∃ fuel result, pump r count fuel s' produced' = some result) :
    ∃ fuel result, pump r count fuel s produced = some result := by
  induction m generalizing s produced with
  | zero => exact absurd rfl hm
  | succ m ih =>
    by_cases hshort : produced.length - r.outputDelay < count
    · cases hcall : r.processIntoBuffer s [] (some 0) with
      | error e => exact ⟨1, .error e, by rw [pump, if_pos hshort, hcall]⟩
      | ok called =>
        have hnext : ∃ fuel result,
            pump r count fuel called.1 (produced ++ called.2.2) = some result := by
          cases hnew : called.2.2 with
          | nil =>
            rw [List.append_nil]
            refine ih called.1 produced ?_ hlater
            intro hnone
            apply hm
            rw [silence, hcall]
            change (silence r m called.1).bind (fun later => .ok (called.2.2 ++ later)) = _
            rw [hnone, hnew]
            rfl
          | cons x new => exact hlater _ _ (by simp)
        obtain ⟨fuel, result, hpump⟩ := hnext
        exact ⟨fuel + 1, result, by rw [pump, if_pos hshort, hcall]; exact hpump⟩
    · exact ⟨1, .ok produced, by rw [pump, if_neg hshort]⟩

/-- A resampler that produces eventually ends the last loop. -/
theorem pump_terminates (r : Resampler σ α β E) (hr : EventuallyProduces r) (count : Nat) (s : σ)
    (produced : List α) : ∃ fuel result, pump r count fuel s produced = some result := by
  by_cases hshort : produced.length - r.outputDelay < count
  · obtain ⟨m, hm⟩ := hr s
    exact pump_of_silence r count m s produced hm fun s' produced' hlt =>
      pump_terminates r hr count s' produced'
  · exact ⟨1, .ok produced, by rw [pump, if_neg hshort]⟩
termination_by r.outputDelay + count - produced.length

end Termination

variable [LinearOrder α] [F32 α]

/-- The state of a stream that has produced so much and has these frames staged. -/
def represent (r : Resampler σ α β E) (n : Nat) (s : σ) (produced staged : List α) :
    Resampling σ α where
  resampler := s
  stagedFrames := staged
  output := (produced.map toI16).drop r.outputDelay
  inputFrameCount := n
  framesToTrim := r.outputDelay - produced.length

theorem new_eq (r : Resampler σ α β E) : new r = represent r 0 r.start [] [] := by
  simp [new, represent]

/-- The delay trimmed call by call is the delay dropped from the whole. -/
theorem trimStartupDelay_represent (r : Resampler σ α β E) (n : Nat) (s s' : σ)
    (produced staged new : List α) :
    trimStartupDelay { represent r n s produced staged with
      resampler := s'
      output := (represent r n s produced staged).output ++ new.map toI16 } =
      represent r n s' (produced ++ new) staged := by
  simp only [trimStartupDelay, represent, List.map_append, List.length_append, List.length_map,
    List.length_drop, Resampling.mk.injEq, true_and]
  rcases Nat.le_total r.outputDelay produced.length with hdone | hdue
  · rw [Nat.sub_eq_zero_of_le hdone, Nat.zero_min, List.drop_zero,
      List.drop_append_of_le_length (by simpa using hdone)]
    refine ⟨rfl, ?_⟩
    omega
  · have hnil : (produced.map toI16).drop r.outputDelay = [] :=
      List.drop_eq_nil_of_le (by simpa using hdue)
    rw [hnil, List.nil_append, List.drop_append, hnil, List.nil_append, List.length_map]
    refine ⟨?_, by omega⟩
    rcases Nat.le_total (r.outputDelay - produced.length) new.length with hle | hge
    · rw [Nat.min_eq_left (by omega)]
    · rw [List.drop_eq_nil_of_le (by simpa using hge), List.drop_eq_nil_of_le]
      rw [List.length_map]
      omega

theorem resampleChunk_represent (r : Resampler σ α β E) (n : Nat) (s : σ)
    (produced staged : List α) (partialFrames : Option Nat) :
    resampleChunk r (represent r n s produced staged) partialFrames =
      (r.processIntoBuffer s staged partialFrames).map fun called =>
        (represent r n called.1 (produced ++ called.2.2) staged, called.2.1) := by
  change (r.processIntoBuffer s staged partialFrames).map _ = _
  congr 1
  funext called
  rw [← trimStartupDelay_represent r n s called.1 produced staged called.2.2]

/-- The loop of `push` is the consumption of what is staged. -/
theorem resampleStaged_represent (r : Resampler σ α β E) (n : Nat) (s : σ)
    (produced staged : List α) :
    resampleStaged r (represent r n s produced staged) =
      (consume r s produced staged).map fun consumed =>
        represent r n consumed.1 consumed.2.1 consumed.2.2 := by
  by_cases hlarge : chunkFrames < staged.length
  · rw [resampleStaged_step r _ hlarge, resampleChunk_represent,
      consume_step r s produced staged hlarge, ← r.full_chunk s staged hlarge.le]
    cases hcall : r.processIntoBuffer s staged none with
    | error e => rfl
    | ok called =>
      have hconsumed : called.2.1 = chunkFrames := r.full_consumes _ _ _ _ _ hlarge.le hcall
      change resampleStaged r (represent r n called.1 (produced ++ called.2.2)
        (staged.drop called.2.1)) = _
      rw [hconsumed]
      exact resampleStaged_represent r n called.1 (produced ++ called.2.2)
        (staged.drop chunkFrames)
  · rw [resampleStaged_small r _ (Nat.le_of_not_lt hlarge),
      consume_small r s produced staged (by omega)]
    rfl
termination_by staged.length
decreasing_by exact drop_chunk_lt (by omega)

theorem push_represent (r : Resampler σ α β E) (n : Nat) (s : σ) (produced staged more : List α) :
    push r (represent r n s produced staged) more =
      (consume r s produced (staged ++ more)).map fun consumed =>
        represent r (n + more.length) consumed.1 consumed.2.1 consumed.2.2 :=
  resampleStaged_represent r (n + more.length) s produced (staged ++ more)

/-- Pieces pushed one by one are consumed as the frames they make up together. -/
theorem foldlM_push_represent (r : Resampler σ α β E) (pieces : List (List α)) (n : Nat) (s : σ)
    (produced staged : List α) (hstaged : staged.length ≤ chunkFrames) :
    pieces.foldlM (push r) (represent r n s produced staged) =
      (consume r s produced (staged ++ pieces.flatten)).map fun consumed =>
        represent r (n + pieces.flatten.length) consumed.1 consumed.2.1 consumed.2.2 := by
  induction pieces generalizing n s produced staged with
  | nil =>
    rw [List.flatten_nil, List.append_nil, consume_small r s produced staged hstaged]
    rfl
  | cons piece pieces ih =>
    rw [List.foldlM_cons, push_represent, List.flatten_cons, ← List.append_assoc,
      consume_append r s produced (staged ++ piece)]
    cases hconsume : consume r s produced (staged ++ piece) with
    | error e => rfl
    | ok consumed =>
      have hrest := consume_rest r s produced _ consumed.1 consumed.2.1 consumed.2.2 hconsume
      have htail := ih (n + piece.length) consumed.1 consumed.2.1 consumed.2.2 hrest
      rw [Nat.add_assoc, ← List.length_append] at htail
      exact htail

theorem resampleRest_represent (r : Resampler σ α β E) (n : Nat) (s : σ)
    (produced rest : List α) :
    resampleRest r (represent r n s produced rest) =
      (consumeRest r s produced rest).map fun consumed =>
        represent r n consumed.1 consumed.2 [] := by
  rw [resampleRest, consumeRest]
  change (if rest ≠ [] then _ else _) = _
  by_cases hrest : rest = []
  · subst hrest
    rfl
  · rw [if_pos hrest, if_pos hrest]
    change ((resampleChunk r (represent r n s produced rest) (some rest.length)).map _) = _
    rw [resampleChunk_represent]
    cases r.processIntoBuffer s rest (some rest.length) with
    | error e => rfl
    | ok called => rfl

/-- The loop of the stream and that of the clip make the same calls. -/
theorem flush_represent (r : Resampler σ α β E) (count fuel n : Nat) (s : σ)
    (produced : List α) :
    (flush r count fuel (represent r n s produced [])).map
        (Except.map fun self => self.output.take count) =
      (pump r count fuel s produced).map
        (Except.map fun produced => ((produced.drop r.outputDelay).take count).map toI16) := by
  induction fuel generalizing s produced with
  | zero => rfl
  | succ fuel ih =>
    have hlength : (represent r n s produced []).output.length =
        produced.length - r.outputDelay := by
      simp [represent]
    rw [flush, pump, hlength, resampleChunk_represent]
    by_cases hshort : produced.length - r.outputDelay < count
    · rw [if_pos hshort, if_pos hshort]
      cases r.processIntoBuffer s [] (some 0) with
      | error e => rfl
      | ok called => exact ih called.1 (produced ++ called.2.2)
    · rw [if_neg hshort, if_neg hshort]
      simp [Except.map, represent, List.map_take, List.map_drop]

variable [LinearOrder β] [F64 β]

/-- The ratio of a number of frames, rounded up: in a 64-bit word. -/
def clipLength (r : Resampler σ α β E) (frames : Nat) : Nat :=
  min (2 ^ 64 - 1) (F64.ceil (F64.mul r.resampleRatio (F64.ofNat frames))).toNat

/-- A clip resampled with all its frames at hand: what is produced less the delay, as many
samples as the ratio says, each a frame times 32767, cut towards zero into 16 bits. -/
def wholeClip (r : Resampler σ α β E) (fuel : Nat) (frames : List α) :
    Option (Except E (List Int16)) :=
  let count := clipLength r frames.length
  let consumed := do
    let (s, produced, rest) ← consume r r.start [] frames
    consumeRest r s produced rest
  match consumed with
  | .error e => some (.error e)
  | .ok (s, produced) =>
    (pump r count fuel s produced).map fun pumped =>
      pumped.map fun produced => ((produced.drop r.outputDelay).take count).map fun frame =>
        Int16.ofInt (max (-32768) (min 32767 (F32.trunc (F32.mul frame (F32.ofInt 32767)))))

omit [LinearOrder α] [F32 α] in
theorem clipLength_eq (r : Resampler σ α β E) (n : Nat) :
    clipLength r n = outputFrameCount r n := by
  rw [clipLength, outputFrameCount, MachineInt.saturateUsize, MachineInt.saturate]
  omega

omit [LinearOrder β] [F64 β] in
theorem toI16_eq (frame : α) : toI16 frame =
    Int16.ofInt (max (-32768) (min 32767 (F32.trunc (F32.mul frame (F32.ofInt 32767))))) := by
  rw [toI16, MachineInt.saturateI16, MachineInt.saturate]
  norm_num

/-- The clip in the words of the stream. -/
theorem wholeClip_eq (r : Resampler σ α β E) (fuel : Nat) (frames : List α) :
    wholeClip r fuel frames =
      match (consume r r.start [] frames).bind fun consumed =>
        consumeRest r consumed.1 consumed.2.1 consumed.2.2 with
      | .error e => some (.error e)
      | .ok (s, produced) =>
        (pump r (outputFrameCount r frames.length) fuel s produced).map fun pumped =>
          pumped.map fun produced =>
            ((produced.drop r.outputDelay).take (outputFrameCount r frames.length)).map toI16 := by
  simp only [wholeClip, clipLength_eq, ← toI16_eq]
  rfl

theorem finish_represent (r : Resampler σ α β E) (fuel n : Nat) (s : σ)
    (produced rest : List α) :
    finish r fuel (represent r n s produced rest) =
      match consumeRest r s produced rest with
      | .error e => some (.error e)
      | .ok (s, produced) =>
        (pump r (outputFrameCount r n) fuel s produced).map fun pumped =>
          pumped.map fun produced =>
            ((produced.drop r.outputDelay).take (outputFrameCount r n)).map toI16 := by
  rw [finish, resampleRest_represent]
  cases consumeRest r s produced rest with
  | error e => rfl
  | ok consumed => exact flush_represent r (outputFrameCount r n) fuel n consumed.1 consumed.2

/-- However a stream is cut, it is resampled as the whole clip is. -/
theorem resample_eq_wholeClip (r : Resampler σ α β E) (fuel : Nat) (pieces : List (List α)) :
    resample r fuel pieces = wholeClip r fuel pieces.flatten := by
  have hpush := foldlM_push_represent r pieces 0 r.start [] [] (Nat.zero_le _)
  rw [List.nil_append, Nat.zero_add] at hpush
  rw [resample, new_eq, hpush, wholeClip_eq]
  cases hconsume : consume r r.start [] pieces.flatten with
  | error e => rfl
  | ok consumed => exact finish_represent r fuel _ consumed.1 consumed.2.1 consumed.2.2

/-- The clip comes out as long as the ratio says. -/
theorem wholeClip_length (r : Resampler σ α β E) (fuel : Nat) (frames : List α)
    (samples : List Int16) (h : wholeClip r fuel frames = some (.ok samples)) :
    samples.length = clipLength r frames.length := by
  rw [clipLength_eq]
  rw [wholeClip_eq] at h
  split at h
  · cases h
  · rename_i s produced _
    cases hpump : pump r (outputFrameCount r frames.length) fuel s produced with
    | none =>
      rw [hpump] at h
      cases h
    | some pumped =>
      rw [hpump] at h
      cases pumped with
      | error e => cases h
      | ok produced' =>
        cases h
        have hcount := pump_length r _ fuel s produced produced' hpump
        simp only [List.length_map, List.length_take, List.length_drop]
        omega

/-- No frames make no samples. -/
theorem wholeClip_nil (r : Resampler σ α β E) (fuel : Nat) :
    wholeClip r (fuel + 1) [] = some (.ok []) := by
  have hconsume := consume_small r r.start ([] : List α) [] (Nat.zero_le _)
  rw [wholeClip_eq, hconsume]
  simp [consumeRest, pump, outputFrameCount_zero, Except.bind, Except.map]

/-- The clip's resampling ends, and more fuel changes nothing. -/
theorem wholeClip_terminates (r : Resampler σ α β E) (hr : EventuallyProduces r)
    (frames : List α) :
    ∃ enough result, ∀ fuel ≥ enough, wholeClip r fuel frames = some result := by
  simp only [wholeClip_eq]
  split
  · rename_i e _
    exact ⟨0, .error e, fun _ _ => rfl⟩
  · rename_i s produced _
    obtain ⟨enough, result, hpump⟩ :=
      pump_terminates r hr (outputFrameCount r frames.length) s produced
    exact ⟨enough, _, fun fuel hfuel => by rw [pump_of_le r _ hfuel hpump, Option.map_some]⟩

/-- However a stream is cut into pieces, pushing them and finishing returns what resampling
the whole clip returns, samples or error, and does return. -/
theorem resample_independent (r : Resampler σ α β E) (hr : EventuallyProduces r)
    (pieces : List (List α)) :
    (∀ fuel, resample r fuel pieces = wholeClip r fuel pieces.flatten) ∧
      ∃ enough result, ∀ fuel ≥ enough, resample r fuel pieces = some result := by
  refine ⟨fun fuel => resample_eq_wholeClip r fuel pieces, ?_⟩
  obtain ⟨enough, result, h⟩ := wholeClip_terminates r hr pieces.flatten
  exact ⟨enough, result, fun fuel hfuel => by rw [resample_eq_wholeClip, h fuel hfuel]⟩

/-- Every third frame of a chunk of 48 kHz audio, silence put after a partial one: what the
filter makes of silence. The state is the position in the stream. -/
noncomputable def decimator : Resampler Nat ℝ Rat Unit where
  start := 0
  processIntoBuffer position input partialFrames :=
    let frames := input.take (partialFrames.getD chunkFrames)
    let offset := (3 - position % 3) % 3
    .ok (position + chunkFrames, partialFrames.getD chunkFrames,
      (List.range ((chunkFrames - offset + 2) / 3)).map fun i => frames.getD (offset + 3 * i) 0)
  resampleRatio := 1 / 3
  outputDelay := 42
  full_chunk position input h := by simp [List.take_take]
  full_consumes position input s' consumed produced h hcall := by
    cases hcall
    rfl

theorem decimator_produces : EventuallyProduces decimator := by
  intro position
  refine ⟨1, fun h => ?_⟩
  have hempty := List.append_eq_nil_iff.mp (Except.ok.inj h)
  have hcount := List.length_eq_zero_iff.mpr hempty.1
  rw [List.length_map, List.length_range, chunkFrames] at hcount
  omega

/-- A second of silence at 48 kHz in uneven pieces, one of them empty. -/
theorem resample_silence :
    EventuallyProduces decimator ∧
      let pieces : List (List ℝ) :=
        [List.replicate 777 0, [], List.replicate 1271 0, List.replicate 45952 0]
      (∀ fuel, resample decimator fuel pieces = wholeClip decimator fuel pieces.flatten) ∧
        ∃ enough result, ∀ fuel ≥ enough, resample decimator fuel pieces = some result :=
  ⟨decimator_produces, resample_independent decimator decimator_produces _⟩

end WholeClip
