import Mathlib
import ShazamioCore.WholeClip

/-!
# The length a stream is finished at

What is staged after a push is the end of the stream, behind the full chunks the resampler
has taken in order. The loop of `finish` runs on what is missing of the output and what is
left to trim of the delay together, and every silent call that produces anything lowers
their sum.
-/
namespace FlushLoop

open MachineInt Resample WholeClip

variable {σ α β E : Type}

def SilentProduces (r : Resampler σ α β E) : Prop :=
  ∀ s s' consumed produced, r.processIntoBuffer s [] (some 0) = .ok (s', consumed, produced) →
    produced ≠ []

/-- Full chunks from the front of a stream, one call each: the state and what they produce. -/
def feed (r : Resampler σ α β E) : Nat → σ → List α → List α → Except E (σ × List α)
  | 0, s, produced, _ => .ok (s, produced)
  | k + 1, s, produced, frames =>
    (r.processIntoBuffer s (frames.take chunkFrames) none).bind fun called =>
      feed r k called.1 (produced ++ called.2.2) (frames.drop chunkFrames)

/-- What consumption leaves is the end of the frames, behind the chunks it has fed. -/
theorem consume_feed (r : Resampler σ α β E) (s : σ) (produced frames : List α) (s' : σ)
    (produced' rest : List α) (h : consume r s produced frames = .ok (s', produced', rest)) :
    ∃ k, chunkFrames * k ≤ frames.length ∧ rest = frames.drop (chunkFrames * k) ∧
      feed r k s produced frames = .ok (s', produced') := by
  by_cases hsmall : frames.length ≤ chunkFrames
  · rw [consume_small r s produced frames hsmall] at h
    cases h
    exact ⟨0, by simp, by simp, rfl⟩
  · rw [consume_step r s produced frames (by omega)] at h
    cases hcall : r.processIntoBuffer s (frames.take chunkFrames) none with
    | error e =>
      rw [hcall] at h
      cases h
    | ok called =>
      rw [hcall] at h
      obtain ⟨k, hk, hrest, hfeed⟩ := consume_feed r called.1 (produced ++ called.2.2)
        (frames.drop chunkFrames) s' produced' rest h
      rw [List.length_drop] at hk
      refine ⟨k + 1, by rw [Nat.mul_succ]; omega, ?_, ?_⟩
      · rw [hrest, List.drop_drop, Nat.mul_succ, Nat.add_comm]
      · rw [feed, hcall]
        exact hfeed
termination_by frames.length
decreasing_by exact drop_chunk_lt (by omega)

variable [LinearOrder α] [F32 α]

structure Staged (r : Resampler σ α β E) (frames : List α) (state : Resampling σ α) : Prop where
  bounded : state.stagedFrames.length ≤ 1024
  counted : state.inputFrameCount = frames.length
  /-- The staged frames are the last ones; those before went through in chunks, each once. -/
  last : ∃ k produced, 1024 * k ≤ frames.length ∧ state.stagedFrames = frames.drop (1024 * k) ∧
    feed r k r.start [] frames = .ok (state.resampler, produced) ∧
    state.output = (produced.map toI16).drop r.outputDelay ∧
    state.framesToTrim = r.outputDelay - produced.length

/-- Whatever the pieces, the state is that of the chunks consumed of all of them. -/
theorem staged_of_pushes {r : Resampler σ α β E} {pieces : List (List α)} {self : Resampling σ α}
    (h : pieces.foldlM (push r) (new r) = .ok self) : Staged r pieces.flatten self := by
  have hpush := foldlM_push_represent r pieces 0 r.start [] [] (Nat.zero_le _)
  rw [List.nil_append, Nat.zero_add, ← new_eq, h] at hpush
  cases hconsume : consume r r.start [] pieces.flatten with
  | error e =>
    rw [hconsume] at hpush
    cases hpush
  | ok consumed =>
    rw [hconsume] at hpush
    cases hpush
    obtain ⟨k, hk, hrest, hfeed⟩ := consume_feed r r.start [] _ consumed.1 consumed.2.1
      consumed.2.2 hconsume
    constructor
    case bounded => exact consume_rest r _ _ _ consumed.1 consumed.2.1 consumed.2.2 hconsume
    case counted => rfl
    case last => exact ⟨k, consumed.2.1, hk, hrest, hfeed, rfl, rfl⟩

section Trim

variable {r : Resampler σ α β E}

theorem resampleChunk_ok {self after : Resampling σ α} {partialFrames : Option Nat}
    {consumedFrames : Nat}
    (h : resampleChunk r self partialFrames = .ok (after, consumedFrames)) :
    ∃ s' produced,
      r.processIntoBuffer self.resampler self.stagedFrames partialFrames =
        .ok (s', consumedFrames, produced) ∧
      after = trimStartupDelay
        { self with resampler := s', output := self.output ++ produced.map toI16 } := by
  rw [resampleChunk] at h
  cases hcall : r.processIntoBuffer self.resampler self.stagedFrames partialFrames with
  | error e =>
    rw [hcall] at h
    cases h
  | ok called =>
    rw [hcall] at h
    cases h
    exact ⟨called.1, called.2.2, rfl, rfl⟩

omit [LinearOrder α] [F32 α] in
/-- While there is delay left to trim, there is no output. -/
theorem trimStartupDelay_trims (self : Resampling σ α) :
    (trimStartupDelay self).framesToTrim = 0 ∨ (trimStartupDelay self).output = [] := by
  rcases Nat.le_total self.framesToTrim self.output.length with hle | hge
  · left
    simp only [trimStartupDelay, Nat.min_eq_left hle, Nat.sub_self]
  · right
    simp only [trimStartupDelay, Nat.min_eq_right hge, List.drop_length]

theorem resampleChunk_trims {self after : Resampling σ α} {partialFrames : Option Nat}
    {consumedFrames : Nat}
    (h : resampleChunk r self partialFrames = .ok (after, consumedFrames)) :
    after.framesToTrim = 0 ∨ after.output = [] := by
  obtain ⟨s', produced, -, rfl⟩ := resampleChunk_ok h
  exact trimStartupDelay_trims _

/-- What a call leaves to trim, and how much output there is then. -/
theorem resampleChunk_lengths {self after : Resampling σ α} {partialFrames : Option Nat}
    {consumedFrames : Nat}
    (h : resampleChunk r self partialFrames = .ok (after, consumedFrames)) :
    ∃ s' produced,
      r.processIntoBuffer self.resampler self.stagedFrames partialFrames =
        .ok (s', consumedFrames, produced) ∧
      after.stagedFrames = self.stagedFrames ∧
      after.framesToTrim = self.framesToTrim - (self.output.length + produced.length) ∧
      after.output.length = self.output.length + produced.length - self.framesToTrim := by
  obtain ⟨s', produced, hcall, rfl⟩ := resampleChunk_ok h
  refine ⟨s', produced, hcall, rfl, ?_, ?_⟩
  · simp only [trimStartupDelay, List.length_append, List.length_map]
    omega
  · simp only [trimStartupDelay, List.length_drop, List.length_append, List.length_map]
    omega

end Trim

section Flush

variable {r : Resampler σ α β E}

/-- What the flush has before it: the delay left to trim and the output that is missing. -/
def missing (count : Nat) (self : Resampling σ α) : Nat :=
  self.framesToTrim + (count - self.output.length)

/-- A silent call of the flush brings it nearer to its end, even one that is trimmed away. -/
theorem missing_lt (hr : SilentProduces r) {count : Nat} {self after : Resampling σ α}
    {consumedFrames : Nat} (hstaged : self.stagedFrames = [])
    (hshort : self.output.length < count)
    (h : resampleChunk r self (some 0) = .ok (after, consumedFrames)) :
    after.stagedFrames = [] ∧ missing count after < missing count self := by
  obtain ⟨s', produced, hcall, hkept, htrim, hlength⟩ := resampleChunk_lengths h
  rw [hstaged] at hcall hkept
  have hproduced := List.length_pos_iff.mpr (hr _ _ _ _ hcall)
  refine ⟨hkept, ?_⟩
  rw [missing, missing, htrim, hlength]
  omega

theorem flush_terminates (hr : SilentProduces r) (count fuel : Nat) (self : Resampling σ α)
    (hstaged : self.stagedFrames = []) (hfuel : missing count self < fuel) :
    ∃ result, flush r count fuel self = some result := by
  induction fuel generalizing self with
  | zero => exact absurd hfuel (Nat.not_lt_zero _)
  | succ fuel ih =>
    rw [flush]
    split
    · rename_i hshort
      cases hcall : resampleChunk r self (some 0) with
      | error e => exact ⟨_, rfl⟩
      | ok called =>
        obtain ⟨hkept, hlt⟩ := missing_lt hr hstaged hshort hcall
        exact ih called.1 hkept (by omega)
    · exact ⟨_, rfl⟩

/-- More fuel than enough changes nothing. -/
theorem flush_of_le (count : Nat) {fuel more : Nat} (hle : fuel ≤ more) {self : Resampling σ α}
    {result : Except E (Resampling σ α)} (h : flush r count fuel self = some result) :
    flush r count more self = some result := by
  induction fuel generalizing more self with
  | zero => cases h
  | succ fuel ih =>
    obtain ⟨more, rfl⟩ : ∃ m, more = m + 1 := ⟨more - 1, by omega⟩
    rw [flush] at h ⊢
    split
    · rename_i hshort
      rw [if_pos hshort] at h
      split at h
      · exact h
      · exact ih (by omega) h
    · rename_i hlong
      rwa [if_neg hlong] at h

theorem flush_length (count fuel : Nat) (self after : Resampling σ α)
    (h : flush r count fuel self = some (.ok after)) : count ≤ after.output.length := by
  induction fuel generalizing self with
  | zero => cases h
  | succ fuel ih =>
    rw [flush] at h
    split at h
    · split at h
      · cases h
      · exact ih _ h
    · cases h
      omega

/-- The partial call leaves nothing staged and no more to trim. -/
theorem resampleRest_ok {self after : Resampling σ α} (h : resampleRest r self = .ok after) :
    after.stagedFrames = [] ∧ after.framesToTrim ≤ self.framesToTrim := by
  rw [resampleRest] at h
  split at h
  · cases hcall : resampleChunk r self (some self.stagedFrames.length) with
    | error e =>
      rw [hcall] at h
      cases h
    | ok called =>
      rw [hcall] at h
      cases h
      obtain ⟨_, _, -, -, htrim, -⟩ := resampleChunk_lengths hcall
      refine ⟨rfl, ?_⟩
      rw [htrim]
      exact Nat.sub_le _ _
  · rename_i hempty
    cases h
    exact ⟨not_not.mp hempty, Nat.le_refl _⟩

end Flush

variable [LinearOrder β] [F64 β]

/-- Finishing returns within a number of passes known beforehand, with the promised number
of samples or an error. -/
theorem finish_terminates {r : Resampler σ α β E} (hr : SilentProduces r)
    (self : Resampling σ α) :
    ∃ result, (∀ fuel, self.framesToTrim + outputFrameCount r self.inputFrameCount < fuel →
        finish r fuel self = some result) ∧
      ∀ samples, result = .ok samples →
        samples.length = outputFrameCount r self.inputFrameCount := by
  generalize hcount : outputFrameCount r self.inputFrameCount = count
  cases hrest : resampleRest r self with
  | error e =>
    refine ⟨.error e, ?_, ?_⟩
    · intro fuel _
      simp only [finish, hrest]
    · intro samples h
      cases h
  | ok rested =>
    obtain ⟨hstaged, htrim⟩ := resampleRest_ok hrest
    have henough : missing count rested < self.framesToTrim + count + 1 := by
      rw [missing]
      omega
    obtain ⟨flushed, hflushed⟩ := flush_terminates hr count _ rested hstaged henough
    refine ⟨flushed.map fun self => self.output.take count, ?_, ?_⟩
    · intro fuel hfuel
      simp only [finish, hcount, hrest, flush_of_le count (Nat.succ_le_of_lt hfuel) hflushed,
        Option.map_some]
    · intro samples h
      cases flushed with
      | error e => cases h
      | ok after =>
        cases h
        rw [List.length_take]
        exact Nat.min_eq_left (flush_length count _ rested after hflushed)

/-- A run of pushes and its end: no call leaves output while there is delay to trim, the
staged frames are the last ones pushed, and `finish` returns what the ratio promises within
as many passes as the delay and the promised length together. -/
theorem finish_exact (r : Resampler σ α β E) (hr : SilentProduces r) (pieces : List (List α))
    (self : Resampling σ α) (h : pieces.foldlM (push r) (new r) = .ok self) :
    (∀ (before after : Resampling σ α) partialFrames consumedFrames,
        resampleChunk r before partialFrames = .ok (after, consumedFrames) →
          after.framesToTrim = 0 ∨ after.output = []) ∧
      Staged r pieces.flatten self ∧
      ∃ result, (∀ fuel,
          r.outputDelay + outputFrameCount r pieces.flatten.length < fuel →
            finish r fuel self = some result) ∧
        ∀ samples, result = .ok samples →
          samples.length = outputFrameCount r pieces.flatten.length ∧
          ∀ n : Nat, n < 2 ^ 64 →
            F64.ceil (F64.mul r.resampleRatio (F64.ofNat pieces.flatten.length)) = n →
              samples.length = n := by
  have hstaged := staged_of_pushes h
  obtain ⟨k, produced, -, -, -, -, htrim⟩ := hstaged.last
  obtain ⟨result, hreturns, hlength⟩ := finish_terminates hr self
  rw [hstaged.counted] at hreturns hlength
  refine ⟨fun _ _ _ _ => resampleChunk_trims, hstaged, result, ?_, ?_⟩
  · intro fuel hfuel
    exact hreturns fuel (by omega)
  · intro samples hsamples
    refine ⟨hlength samples hsamples, ?_⟩
    intro n hn hceil
    rw [hlength samples hsamples, outputFrameCount, hceil, saturateUsize,
      saturate_of_mem _ _ _ (by omega) (by omega), Int.toNat_natCast]

theorem decimator_silentProduces : SilentProduces decimator := by
  intro position s' consumed produced hcall hnil
  cases hcall
  have hcount := List.length_eq_zero_iff.mpr hnil
  rw [List.length_map, List.length_range, chunkFrames] at hcount
  omega

theorem push_first (frames : List ℝ) (h : frames.length ≤ chunkFrames) :
    [frames].foldlM (push decimator) (new decimator) =
      .ok (represent decimator frames.length decimator.start [] frames) := by
  have hpush := foldlM_push_represent decimator [frames] 0 decimator.start [] [] (Nat.zero_le _)
  rw [List.flatten_singleton, List.nil_append, consume_small _ _ _ _ h, Nat.zero_add] at hpush
  rw [new_eq, hpush]
  rfl

theorem outputFrameCount_thousand : outputFrameCount decimator 1000 = 334 := by
  have hceil : ⌈(1 / 3 : Rat) * (1000 : Nat)⌉ = 334 := by
    rw [Int.ceil_eq_iff]
    norm_num
  change saturateUsize ⌈(1 / 3 : Rat) * (1000 : Nat)⌉ = 334
  rw [hceil]
  decide

/-- A thousand frames, after whose partial call output is missing still: one pass of the last
loop does not end it, the promised number of passes does. -/
theorem finish_exact_flushed :
    ∃ self result, [List.replicate 1000 (0 : ℝ)].foldlM (push decimator) (new decimator) =
        .ok self ∧
      finish decimator 1 self = none ∧
      ∀ fuel, decimator.outputDelay + outputFrameCount decimator 1000 < fuel →
        finish decimator fuel self = some result := by
  have hlength : (List.replicate 1000 (0 : ℝ)).length = 1000 := List.length_replicate
  generalize List.replicate 1000 (0 : ℝ) = frames at hlength ⊢
  have hpush := push_first frames (by rw [hlength, chunkFrames]; omega)
  rw [hlength] at hpush
  obtain ⟨-, -, result, hreturns, -⟩ :=
    finish_exact decimator decimator_silentProduces _ _ hpush
  rw [List.flatten_singleton, hlength] at hreturns
  refine ⟨_, result, hpush, ?_, hreturns⟩
  have hne : frames ≠ [] := List.ne_nil_of_length_pos (by omega)
  obtain ⟨produced, hcall, hproduced⟩ : ∃ produced,
      decimator.processIntoBuffer decimator.start frames (some frames.length) =
        .ok (chunkFrames, frames.length, produced) ∧ produced.length = 342 :=
    ⟨_, rfl, by rw [List.length_map, List.length_range]; rfl⟩
  have hrest : consumeRest decimator decimator.start [] frames = .ok (chunkFrames, produced) := by
    rw [consumeRest, if_pos hne, hcall]
    rfl
  have hdelay : decimator.outputDelay = 42 := rfl
  rw [finish_represent, hrest, outputFrameCount_thousand]
  simp only
  rw [pump, if_pos (by omega)]
  rfl

end FlushLoop
