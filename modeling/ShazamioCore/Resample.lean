import Mathlib
import ShazamioCore.F32

/-!
# Resampling a stream

Frames are staged until more than a chunk of them lies ready, each chunk goes through the
resampler, and the frames its filter is late by are dropped from the front of what comes
out. The resampler is a parameter: a state and a call that may fail, and that with no
partial length takes a chunk of 1024 frames and looks at nothing past it.
-/
namespace Resample

open MachineInt

def chunkFrames : Nat := 1024

theorem drop_chunk_lt {α : Type} {frames : List α} (h : chunkFrames < frames.length) :
    (frames.drop chunkFrames).length < frames.length := by
  have hpos : 0 < chunkFrames := by decide
  rw [List.length_drop]
  omega

/-- A resampler in its first state, with what it tells about itself. A call yields its next
state, the frames it consumed and the frames it produced. -/
structure Resampler (σ α β E : Type) where
  start : σ
  processIntoBuffer : σ → List α → Option Nat → Except E (σ × Nat × List α)
  resampleRatio : β
  outputDelay : Nat
  full_chunk : ∀ s input, chunkFrames ≤ input.length →
    processIntoBuffer s input none = processIntoBuffer s (input.take chunkFrames) none
  full_consumes : ∀ s input s' consumed produced, chunkFrames ≤ input.length →
    processIntoBuffer s input none = .ok (s', consumed, produced) → consumed = chunkFrames

structure Resampling (σ α : Type) where
  resampler : σ
  stagedFrames : List α
  output : List Int16
  inputFrameCount : Nat
  framesToTrim : Nat

variable {σ α β E : Type} [LinearOrder α] [F32 α]

/-- `(frame * i16::MAX as f32) as i16`. -/
def toI16 (frame : α) : Int16 :=
  Int16.ofInt (saturateI16 (F32.trunc (F32.mul frame (F32.ofInt (2 ^ 15 - 1)))))

def new (r : Resampler σ α β E) : Resampling σ α where
  resampler := r.start
  stagedFrames := []
  output := []
  inputFrameCount := 0
  framesToTrim := r.outputDelay

def trimStartupDelay (self : Resampling σ α) : Resampling σ α :=
  let trimmedFrames := min self.framesToTrim self.output.length
  { self with
    output := self.output.drop trimmedFrames
    framesToTrim := self.framesToTrim - trimmedFrames }

/-- One call into the resampler over the staged frames, and how many of them it took. -/
def resampleChunk (r : Resampler σ α β E) (self : Resampling σ α) (partialFrames : Option Nat) :
    Except E (Resampling σ α × Nat) :=
  (r.processIntoBuffer self.resampler self.stagedFrames partialFrames).map
    fun (resampler, consumedFrames, produced) =>
      (trimStartupDelay
        { self with resampler := resampler, output := self.output ++ produced.map toI16 },
        consumedFrames)

theorem resampleChunk_eq_ok {r : Resampler σ α β E} {self self' : Resampling σ α}
    {partialFrames : Option Nat} {consumedFrames : Nat}
    (h : resampleChunk r self partialFrames = .ok (self', consumedFrames)) :
    self'.stagedFrames = self.stagedFrames ∧ ∃ s' produced,
      r.processIntoBuffer self.resampler self.stagedFrames partialFrames =
        .ok (s', consumedFrames, produced) := by
  rw [resampleChunk] at h
  cases hcall : r.processIntoBuffer self.resampler self.stagedFrames partialFrames with
  | error e =>
    rw [hcall] at h
    cases h
  | ok called =>
    rw [hcall] at h
    cases h
    exact ⟨rfl, called.1, called.2.2, rfl⟩

/-- The loop of `push`: a chunk at a time while more than one is staged. -/
def resampleStaged (r : Resampler σ α β E) (self : Resampling σ α) : Except E (Resampling σ α) :=
  if _hstaged : chunkFrames < self.stagedFrames.length then
    match _h : resampleChunk r self none with
    | .error e => .error e
    | .ok (self', consumedFrames) =>
      resampleStaged r { self' with stagedFrames := self'.stagedFrames.drop consumedFrames }
  else .ok self
termination_by self.stagedFrames.length
decreasing_by
  obtain ⟨hkept, s', produced, hcall⟩ := resampleChunk_eq_ok _h
  have hconsumed := r.full_consumes _ _ _ _ _ (Nat.le_of_lt _hstaged) hcall
  rw [hkept, hconsumed]
  exact drop_chunk_lt _hstaged

theorem resampleStaged_small (r : Resampler σ α β E) (self : Resampling σ α)
    (h : self.stagedFrames.length ≤ chunkFrames) : resampleStaged r self = .ok self := by
  rw [resampleStaged, dif_neg (by omega)]

theorem resampleStaged_step (r : Resampler σ α β E) (self : Resampling σ α)
    (h : chunkFrames < self.stagedFrames.length) :
    resampleStaged r self = (resampleChunk r self none).bind fun called =>
      resampleStaged r
        { called.1 with stagedFrames := called.1.stagedFrames.drop called.2 } := by
  rw [resampleStaged, dif_pos h]
  split
  · rename_i hcall
    rw [hcall]
    rfl
  · rename_i hcall
    rw [hcall]
    rfl

def push (r : Resampler σ α β E) (self : Resampling σ α) (monoFrames : List α) :
    Except E (Resampling σ α) :=
  resampleStaged r { self with
    stagedFrames := self.stagedFrames ++ monoFrames
    inputFrameCount := self.inputFrameCount + monoFrames.length }

/-- The last loop of `finish`: silence until the output is long enough. `none` is a loop
still going when the fuel is spent. -/
def flush (r : Resampler σ α β E) (outputFrameCount : Nat) :
    Nat → Resampling σ α → Option (Except E (Resampling σ α))
  | 0, _ => none
  | fuel + 1, self =>
    if self.output.length < outputFrameCount then
      match resampleChunk r self (some 0) with
      | .error e => some (.error e)
      | .ok (self, _) => flush r outputFrameCount fuel self
    else some (.ok self)

section Finish

variable [LinearOrder β] [F64 β]

/-- `(resample_ratio * n as f64).ceil() as usize`. -/
def outputFrameCount (r : Resampler σ α β E) (n : Nat) : Nat :=
  saturateUsize (F64.ceil (F64.mul r.resampleRatio (F64.ofNat n)))

omit [LinearOrder α] [F32 α] in
theorem outputFrameCount_zero (r : Resampler σ α β E) : outputFrameCount r 0 = 0 := by
  rw [outputFrameCount, F64.ceil_mul_zero]
  rfl

omit [LinearOrder α] [F32 α] in
theorem outputFrameCount_pos (r : Resampler σ α β E) (hratio : F64.ofNat 0 < r.resampleRatio)
    (n : Nat) (hn : 0 < n) : 0 < outputFrameCount r n := by
  have hproduct := F64.le_mul_ofNat r.resampleRatio n hratio hn
  exact saturateUsize_pos _ (F64.ceil_pos _ (lt_of_lt_of_le hratio hproduct))

/-- The partial call of `finish`, made only if something is staged. -/
def resampleRest (r : Resampler σ α β E) (self : Resampling σ α) : Except E (Resampling σ α) :=
  if self.stagedFrames ≠ [] then
    (resampleChunk r self (some self.stagedFrames.length)).map fun (self, _) =>
      { self with stagedFrames := [] }
  else .ok self

def finish (r : Resampler σ α β E) (fuel : Nat) (self : Resampling σ α) :
    Option (Except E (List Int16)) :=
  let outputFrameCount := outputFrameCount r self.inputFrameCount
  match resampleRest r self with
  | .error e => some (.error e)
  | .ok self =>
    (flush r outputFrameCount fuel self).map fun flushed =>
      flushed.map fun self => self.output.take outputFrameCount

/-- A stream pushed piece by piece and finished. -/
def resample (r : Resampler σ α β E) (fuel : Nat) (pieces : List (List α)) :
    Option (Except E (List Int16)) :=
  match pieces.foldlM (push r) (new r) with
  | .error e => some (.error e)
  | .ok self => finish r fuel self

end Finish

end Resample
