import Mathlib
import ShazamioCore.DataUri
import ShazamioCore.PythonApi
import ShazamioCore.ShortenedStream

/-!
# Runs of a program

A program makes calls and cancels futures, and workers settle the others in between, at any
moments and in any order. What the objects hold and what a future is to come to do not depend on
that order. A worker that finds a source that fits the build answers with a record whose URI is
read back to the landmarks of what is analysed of the source, or with a `SignatureError`: it never
panics.
-/
namespace PythonRuns

open MachineInt F32 SignatureFormat Algorithm Segment Communication Resample SignatureFraming
  PcmSamples Recognition GeneratorRun StreamingPeaks SampleRing DataUri DeferredCalls PythonApi

section Answers

variable {A P δ σ β E : Type} [LinearOrder β] [F64 β]

def source (found : Surroundings) : Value → Option MediaSource
  | .bytes value => some (.cursor value)
  | .path value => (found.openFile value).toOption.map .file

/-- A record whose URI is read back to the signature of what is analysed of a source: its length
and, lowest band first, the landmarks of the peaks of all its passes. -/
def Reported (backend : Backend A P δ ℝ σ β E) (source : MediaSource) (seconds : UInt32)
    (json : Signature) : Prop :=
  ∃ segment numberSamples, Analysed backend source (some seconds) segment ∧
    numberSamples.toNat = segment.length ∧
    readUri json.signature.uri = some (16000, numberSamples,
      recordedEntries backend.overflow (fun p => spectrumAt backend.fft segment p)
        (segment.length / 128)) ∧
    json.signature.samples = durationMs numberSamples 16000

/-- The answers of a worker that does not panic. -/
def Answers (backend : Backend A P δ ℝ σ β E) (source : Option MediaSource) (seconds : UInt32) :
    Except PyErr Signature → Prop
  | .error error => ∃ message, error = .signatureError message
  | .ok json => ∃ opened ∈ source, Reported backend opened seconds json

/-- A signature of what is analysed becomes a record that reads back to it. -/
theorem unwrap_reported (runtime : Runtime A P δ ℝ σ β E)
    (hbase64 : runtime.base64 = standardBase64) {milliseconds : Nat}
    (hclock : milliseconds < 2 ^ 64) {opened : MediaSource} {seconds : UInt32}
    {signature : DecodedSignature}
    (hsigned : Signed runtime.toBackend opened (some seconds) signature) :
    ∃ json, unwrapDecodedSignature runtime (some milliseconds) signature = .returned (.ok json) ∧
      Reported runtime.toBackend opened seconds json := by
  obtain ⟨segment, hsegment, hshort, hnumber, hmake⟩ := hsigned.analysed
  obtain ⟨uri, huri, hread, -⟩ :=
    readUri_encodeToUri runtime.overflow runtime.crc32 signature hsigned.encodable
  rw [makeSignatureFromBuffer_eq _ _ _ (by omega), Option.map_eq_some_iff] at hmake
  obtain ⟨bands, hbands, rfl⟩ := hmake
  rw [hsigned.rate, setBands_bands, sortedEntries_record hbands] at hread
  unfold unwrapDecodedSignature getSignatureJson
  rw [hbase64, huri]
  simp only [if_pos hclock, Option.map_some]
  refine ⟨_, rfl, segment, _, hsegment, hnumber, hread, ?_⟩
  rw [hsigned.rate]

/-- Only the clock can still fail. -/
theorem unwrap_answers (runtime : Runtime A P δ ℝ σ β E)
    (hbase64 : runtime.base64 = standardBase64) (now : Option Nat) {opened : MediaSource}
    {seconds : UInt32} {signature : DecodedSignature}
    (hsigned : Signed runtime.toBackend opened (some seconds) signature) :
    ∃ result, unwrapDecodedSignature runtime now signature = .returned result ∧
      Answers runtime.toBackend (some opened) seconds result := by
  by_cases hclock : ∃ milliseconds < 2 ^ 64, now = some milliseconds
  · obtain ⟨milliseconds, hclock, rfl⟩ := hclock
    obtain ⟨json, hjson, hreported⟩ := unwrap_reported runtime hbase64 hclock hsigned
    exact ⟨_, hjson, opened, rfl, hreported⟩
  · obtain ⟨uri, huri, -⟩ :=
      readUri_encodeToUri runtime.overflow runtime.crc32 signature hsigned.encodable
    unfold unwrapDecodedSignature getSignatureJson
    rw [hbase64, huri]
    cases now with
    | none => exact ⟨_, rfl, _, rfl⟩
    | some milliseconds =>
      simp only [if_neg fun h => hclock ⟨milliseconds, h, rfl⟩]
      exact ⟨_, rfl, _, rfl⟩

/-- Nothing that the worker makes of a source that fits is lost or panics on the way to Python. -/
theorem report_answers (runtime : Runtime A P δ ℝ σ β E)
    (hbase64 : runtime.base64 = standardBase64) (fuel : Nat) (now : Option Nat) (name : String)
    {opened : MediaSource} {seconds : UInt32}
    (hfits : Fits runtime.toBackend opened (some seconds)) :
    report runtime now name (signatureAtOnce runtime.toBackend fuel opened (some seconds)) =
        .running ∨
      ∃ result, report runtime now name
          (signatureAtOnce runtime.toBackend fuel opened (some seconds)) = .returned result ∧
        Answers runtime.toBackend (some opened) seconds result := by
  rcases signatureAtOnce_sound runtime.toBackend fuel hfits with hrunning | ⟨made, hmade, hsigned⟩
  · left
    rw [hrunning]
    rfl
  · right
    rw [hmade]
    cases made with
    | error failure => exact ⟨_, rfl, _, rfl⟩
    | ok signature => exact unwrap_answers runtime hbase64 now (hsigned signature rfl)

/-- The future of a call panics on no source that fits. -/
theorem future_answers (runtime : Runtime A P δ ℝ σ β E) (hbase64 : runtime.base64 = standardBase64)
    (found : Surroundings) (task : Task)
    (hfits : ∀ opened ∈ source found task.value,
      Fits runtime.toBackend opened (some task.segmentDurationSeconds)) :
    future runtime found task = .running ∨
      ∃ result, future runtime found task = .returned result ∧
        Answers runtime.toBackend (source found task.value) task.segmentDurationSeconds result := by
  obtain ⟨value, seconds⟩ := task
  unfold future
  cases value with
  | bytes value =>
    simp only [makeSignatureFromBytes, fromBytes, makeSignature_source]
    exact report_answers runtime hbase64 found.fuel found.now _ (hfits _ rfl)
  | path value =>
    cases hopened : found.openFile value with
    | error kind =>
      right
      simp only [hopened]
      exact ⟨_, rfl, _, rfl⟩
    | ok contents =>
      have hsource : source found (.path value) = some (.file contents) := by
        rw [source, hopened]
        rfl
      rw [hsource] at hfits ⊢
      simp only [hopened, makeSignatureFromFile, fromFile, makeSignature_source]
      exact report_answers runtime hbase64 found.fuel found.now _ (hfits _ rfl)

end Answers

section Session

open ShortenedStream (breakingBackend breakingBackend_signed breakingBackend_entire)

/-- The backend that plays a pulse, with the checksum and the alphabet of the code. -/
noncomputable def pulseRuntime :
    Runtime Unit (Option (UInt32 × List ℝ)) Unit ℝ Unit Rat Unit where
  toBackend := breakingBackend
  crc32 := crc32Ieee
  base64 := standardBase64
  describe _ := "malformed stream"
  describeJson _ := "second time provided was later than self"

/-- A worker that runs five milliseconds past the epoch and finds no file. -/
def surroundings : Surroundings where
  fuel := 1
  now := some 5
  openFile _ := .error (.other 2)
  payload := .other

/-- A recognizer recognises a pulse, is given another duration, refuses zero and recognises a
file, whose future is cancelled. -/
def opening : Trace :=
  [.call (.newRecognizer none), .call (.recognizeBytes 0 .running [0] none),
    .call (.setRecognizer 0 7), .call (.setRecognizer 0 0),
    .call (.recognizePath 0 .running "track" none), .cancel 1]

/-- Then the workers run, the second first, and where no event loop is left there is no third. -/
def closing : Trace :=
  [.settle 1 (.ran surroundings), .settle 0 (.ran surroundings),
    .call (.recognizePath 0 (.absent "no running event loop") "track" none)]

theorem pulse_answered : ∃ json,
    future pulseRuntime surroundings ⟨.bytes [0], 12⟩ = .returned (.ok json) := by
  obtain ⟨n, signature, peak, -, -, hmade, -⟩ := breakingBackend_signed (.cursor [0])
  have hsigned : Signed breakingBackend (.cursor [0]) (some 12) signature := by
    rw [makeSignatureFrom_eq] at hmade
    rcases signatureAtOnce_sound breakingBackend 1 (breakingBackend_entire (.cursor [0])).fits with
      hrunning | ⟨result, hresult, hsound⟩
    · cases hrunning.symm.trans hmade
    · exact hsound signature (Outcome.returned.inj (hresult.symm.trans hmade))
  rw [makeSignatureFrom] at hmade
  have hclock : 5 < 2 ^ 64 := by norm_num
  obtain ⟨json, hjson, -⟩ := unwrap_reported pulseRuntime rfl hclock hsigned
  refine ⟨json, ?_⟩
  change report pulseRuntime (some 5) "the byte payload"
    (makeSignatureFromBytes breakingBackend 1 [0] (some 12)) = _
  rw [hmade, report, hjson]

def sessionReplies : List Reply :=
  [.recognizer 0, .future, .done,
    .raised (.valueError "segment_duration_seconds must be at least 1"), .future,
    .raised (.runtimeError "no running event loop")]

/-- The first future has a record, for the twelve seconds the recognizer held. -/
def sessionEnd (json : Signature) : World Objects Task (Except PyErr Signature) where
  state := ⟨[⟨7⟩], []⟩
  deferred :=
    [⟨⟨.bytes [0], 12⟩, true, .done (.ok json)⟩, ⟨⟨.path "track", 7⟩, true, .cancelled⟩]

/-- Before the workers run. -/
def sessionMiddle : World Objects Task (Except PyErr Signature) where
  state := ⟨[⟨7⟩], []⟩
  deferred := [⟨⟨.bytes [0], 12⟩, false, .pending⟩, ⟨⟨.path "track", 7⟩, false, .cancelled⟩]

theorem opening_runs : (machine pulseRuntime).run imported opening =
    some (sessionReplies.take 5, sessionMiddle) := rfl

section Closing

variable {A P δ α σ β E : Type} [LinearOrder α] [F32 α] [LinearOrder β] [F64 β]
  {runtime : Runtime A P δ α σ β E}

theorem finish_returned {found : Surroundings} {task : Task} {result : Except PyErr Signature}
    (h : future runtime found task = .returned result) :
    (machine runtime).finish task (.ran found) = some result := by
  simp only [machine, join, h]
  rfl

/-- With what the workers make of the two tasks, the second of which is dropped. -/
theorem closing_runs {json : Signature} {dropped : Except PyErr Signature}
    (hdone : (machine runtime).finish ⟨.bytes [0], 12⟩ (.ran surroundings) = some (.ok json))
    (hdropped : (machine runtime).finish ⟨.path "track", 7⟩ (.ran surroundings) = some dropped) :
    (machine runtime).run sessionMiddle closing =
      some (sessionReplies.drop 5, sessionEnd json) := by
  simp only [closing, sessionMiddle, Machine.run, Machine.step, Machine.settle,
    List.getElem?_cons_succ, List.getElem?_cons_zero, hdropped, Option.map_some,
    Option.bind_eq_bind, Option.bind_some, List.set_cons_succ, List.set_cons_zero, hdone]
  rfl

end Closing

theorem session_runs : ∃ json, (machine pulseRuntime).run imported (opening ++ closing) =
    some (sessionReplies, sessionEnd json) := by
  obtain ⟨json, hjson⟩ := pulse_answered
  have hdropped : future pulseRuntime surroundings ⟨.path "track", 7⟩ =
      .returned (.error (.signatureError "track: malformed stream")) := rfl
  refine ⟨json, ?_⟩
  rw [run_append, opening_runs, Option.bind_some]
  simp only [closing_runs (finish_returned hjson) (finish_returned hdropped)]
  rfl

end Session

/-- What a worker hands its future, ended so: its own result, or that it panicked or was
cancelled. -/
def Settles {A P δ α σ β E : Type} [LinearOrder α] [F32 α] [LinearOrder β] [F64 β]
    (runtime : Runtime A P δ α σ β E) (task : Task) (result : Except PyErr Signature) :
    Ending → Prop
  | .cancelled message => result = .error (.rustPanic ("rust future panicked: " ++ message))
  | .ran found => future runtime found task = .returned result ∨
      future runtime found task = .panicked ∧
        result = .error (.rustPanic ("rust future panicked: " ++ panicMessage found.payload))

section Runs

variable {A P δ α σ β E : Type} [LinearOrder α] [F32 α] [LinearOrder β] [F64 β]
  {runtime : Runtime A P δ α σ β E}

theorem finish_settles {task : Task} {ending : Ending} {result : Except PyErr Signature}
    (h : (machine runtime).finish task ending = some result) :
    Settles runtime task result ending := by
  obtain ⟨joined, hjoin, rfl⟩ := Option.map_eq_some_iff.mp h
  cases ending with
  | cancelled message =>
    cases hjoin
    rfl
  | ran found =>
    rw [Settles]
    unfold join at hjoin
    cases hfuture : future runtime found task with
    | running =>
      simp only [hfuture] at hjoin
      cases hjoin
    | panicked =>
      simp only [hfuture] at hjoin
      cases hjoin
      exact Or.inr ⟨rfl, rfl⟩
    | returned answer =>
      simp only [hfuture] at hjoin
      cases hjoin
      exact Or.inl rfl

/-- However calls, workers and cancellations follow one another, no object and no task ever holds
a duration of zero. A call raises exactly where it would set one, a `ValueError`, or recognises
without an event loop, a `RuntimeError`, and leaves all as it was. -/
theorem durations_valid (events : Trace) (replies : List Reply)
    (w : World Objects Task (Except PyErr Signature))
    (h : (machine runtime).run imported events = some (replies, w)) :
    (w.state.Valid ∧ ∀ d ∈ w.deferred, d.task.segmentDurationSeconds ≠ 0) ∧
      ∀ c reply w', (machine runtime).makeCall w c = some (reply, w') → ∀ error,
        (reply = .raised error ↔
          (c.newSeconds = some 0 ∧
            error = .valueError "segment_duration_seconds must be at least 1") ∨
          ∃ message, c.noLoop = some message ∧ error = .runtimeError message) ∧
        (reply = .raised error → w' = w) := by
  have hvalid := imported_run_valid h
  refine ⟨hvalid, fun c reply w' hmade error => ?_⟩
  obtain ⟨task, hcall, hdeferred⟩ := makeCall_eq_some hmade
  have hobeys := call_obeys hvalid.1 hcall
  refine ⟨hobeys.raised error, fun hraised => ?_⟩
  obtain ⟨hstate, rfl⟩ := hobeys.unchanged error ((hobeys.raised error).mp hraised)
  exact makeCall_idle hstate hdeferred

/-- After the session the recognizer is refused zero, and a file where there is no loop. -/
theorem session_durations : ∃ json,
    (machine pulseRuntime).run imported (opening ++ closing) =
      some (sessionReplies, sessionEnd json) ∧
    (∀ seconds reply w', (machine pulseRuntime).makeCall (sessionEnd json)
        (.setRecognizer 0 seconds) = some (reply, w') →
      ((∃ error, reply = .raised error) ↔ seconds = 0)) ∧
    ∀ reply w', (machine pulseRuntime).makeCall (sessionEnd json)
        (.recognizePath 0 (.absent "no running event loop") "track" none) = some (reply, w') →
      reply = .raised (.runtimeError "no running event loop") ∧ w' = sessionEnd json := by
  obtain ⟨json, hrun⟩ := session_runs
  obtain ⟨-, hcalls⟩ := durations_valid _ _ _ hrun
  refine ⟨json, hrun, fun seconds reply w' hcall => ?_, fun reply w' hcall => ?_⟩
  · simp [(hcalls _ _ _ hcall _).1, Call.newSeconds, Call.noLoop]
  · have hraised := (hcalls _ _ _ hcall (.runtimeError "no running event loop")).1.mpr
      (Or.inr ⟨_, rfl, rfl⟩)
    exact ⟨hraised, (hcalls _ _ _ hcall _).2 hraised⟩

/-- A call to recognise takes the duration its objects hold at that moment. Whatever is called
after it and whichever workers run, its task keeps the value and that duration, and its future is
what its own worker makes of the two, unless it was cancelled before. -/
theorem future_captures (before after : Trace)
    (replies replies' : List Reply) (w w₁ w' : World Objects Task (Except PyErr Signature))
    (i : Nat) (options : Option Nat) (value : Value) (reply : Reply)
    (hbefore : (machine runtime).run imported before = some (replies, w))
    (hcall : (machine runtime).makeCall w (recognizeCall i .running options value) =
      some (reply, w₁))
    (hafter : (machine runtime).run w₁ after = some (replies', w')) :
    ∃ self params d, w.state.named i options = some (self, params) ∧ reply = .future ∧
      w'.deferred[w.deferred.length]? = some d ∧ d.task = ⟨value, chosen self params⟩ ∧
      Fate (machine runtime) ⟨value, chosen self params⟩ w.deferred.length after d.status ∧
      ∀ result, d.status = .done result → ∃ ending, .settle w.deferred.length ending ∈ after ∧
        Settles runtime ⟨value, chosen self params⟩ result ending := by
  obtain ⟨task, hmade, hdeferred⟩ := makeCall_eq_some hcall
  obtain ⟨self, params, hnamed, -, heq⟩ := call_recognize (imported_run_valid hbefore).1 hmade
  change (reply, w₁.state, task) = (.future, w.state, some ⟨value, chosen self params⟩) at heq
  simp only [Prod.mk.injEq] at heq
  obtain ⟨rfl, -, rfl⟩ := heq
  have hplace : w₁.deferred[w.deferred.length]? = some (.left ⟨value, chosen self params⟩) := by
    rw [hdeferred]
    simp
  obtain ⟨d, hd, htask, -⟩ := run_keeps hafter hplace
  change d.task = ⟨value, chosen self params⟩ at htask
  have hfate : Fate (machine runtime) d.task w.deferred.length after d.status := by
    refine run_fate hafter (fun d' hd' => ?_) hd
    obtain rfl := Option.some.inj (hd'.symm.trans hplace)
    rfl
  rw [htask] at hfate
  refine ⟨self, params, d, hnamed, rfl, hd, htask, hfate, fun result hdone => ?_⟩
  rw [hdone] at hfate
  obtain ⟨earlier, ending, later, rfl, -, hfinish⟩ := hfate
  exact ⟨ending, by simp, finish_settles hfinish⟩

/-- The first call of the session, of twelve seconds before the recognizer is given seven. -/
theorem session_captures : ∃ json,
    (machine pulseRuntime).run imported (opening ++ closing) =
      some (sessionReplies, sessionEnd json) ∧
    Fate (machine pulseRuntime) ⟨.bytes [0], 12⟩ 0 ((opening ++ closing).drop 2)
      (.done (.ok json)) ∧
    ∃ ending, .settle 0 ending ∈ (opening ++ closing).drop 2 ∧
      Settles pulseRuntime ⟨.bytes [0], 12⟩ (.ok json) ending := by
  obtain ⟨json, hrun⟩ := session_runs
  refine ⟨json, hrun, ?_⟩
  obtain ⟨reply, w, rest, hnew, hrest, hreplies⟩ := run_cons hrun
  cases hnew
  obtain ⟨reply', w₁, rest', hcall, hrest', hreplies'⟩ := run_cons hrest
  cases hcall
  obtain ⟨self, params, d, hnamed, -, hd, htask, hfate, hsettles⟩ :=
    future_captures [.call (.newRecognizer none)] ((opening ++ closing).drop 2)
      [.recognizer 0] rest' ⟨⟨[⟨12⟩], []⟩, []⟩ _ _ 0 none (.bytes [0]) .future rfl rfl hrest'
  cases hnamed
  cases hd
  exact ⟨hfate, hsettles (.ok json) rfl⟩

/-- Through any run, every object holds the duration last set that was not refused, at its
making or since; reading it gives that one, and a call to recognise takes that of the options it
names, or else of the recognizer. -/
theorem durations_held (events : Trace) (replies : List Reply)
    (w : World Objects Task (Except PyErr Signature))
    (h : (machine runtime).run imported events = some (replies, w)) :
    Holds (calls events) w.state ∧
      (∀ kind i reply w', (machine runtime).makeCall w (getCall kind i) = some (reply, w') →
        w' = w ∧ ∃ seconds, lastSet (calls events) kind i = some seconds ∧
          reply = .seconds seconds) ∧
      ∀ i options value reply w', (machine runtime).makeCall w
          (recognizeCall i .running options value) = some (reply, w') →
        reply = .future ∧ w'.state = w.state ∧ ∃ seconds,
          lastNamed (calls events) i options = some seconds ∧
          w'.deferred = w.deferred ++ [.left ⟨value, seconds⟩] := by
  have hholds : Holds (calls events) w.state :=
    runCalls_history (H := Holds)
      (fun _ _ _ _ _ _ hpast hmade => holds_call hpast hmade) (run_calls h) holds_imported
  refine ⟨hholds, ?_, ?_⟩
  · intro kind i reply w' hread
    obtain ⟨task, hmade, hdeferred⟩ := makeCall_eq_some hread
    obtain ⟨hstate, rfl, seconds, hreply, hseconds⟩ := call_get hmade
    exact ⟨makeCall_idle hstate hdeferred, seconds, (hholds.held kind i).symm.trans hseconds,
      hreply⟩
  · intro i options value reply w' hcall
    obtain ⟨task, hmade, hdeferred⟩ := makeCall_eq_some hcall
    obtain ⟨self, params, hnamed, -, heq⟩ := call_recognize (imported_run_valid h).1 hmade
    change (reply, w'.state, task) = (.future, w.state, some ⟨value, chosen self params⟩) at heq
    simp only [Prod.mk.injEq] at heq
    obtain ⟨hreply, hstate, rfl⟩ := heq
    exact ⟨hreply, hstate, chosen self params, holds_named hholds hnamed, hdeferred⟩

/-- The recognizer holds the seven seconds it was given, not the zero refused after. -/
theorem session_held : ∃ json,
    (machine pulseRuntime).run imported (opening ++ closing) =
      some (sessionReplies, sessionEnd json) ∧
    ∀ reply w', (machine pulseRuntime).makeCall (sessionEnd json) (.getRecognizer 0) =
      some (reply, w') → reply = .seconds 7 := by
  obtain ⟨json, hrun⟩ := session_runs
  refine ⟨json, hrun, fun reply w' hread => ?_⟩
  obtain ⟨-, hreads, -⟩ := durations_held _ _ _ hrun
  obtain ⟨-, seconds, hset, hreply⟩ := hreads .recognizer 0 reply w' hread
  have hseven : lastSet (calls (opening ++ closing)) .recognizer 0 = some 7 := rfl
  rw [hreply, Option.some.inj (hset.symm.trans hseven)]

end Runs

section Answered

open ShortenedStream (breakingBackend breakingBackend_entire)

variable {A P δ σ β E : Type} [LinearOrder β] [F64 β]

/-- Through any run, a future with a result has it from a worker. One that ran, on a source that
fits, answered: with a record whose URI is read back to the landmarks of what is analysed of the
source for the duration the call took, or with a `SignatureError`. -/
theorem workers_answer (runtime : Runtime A P δ ℝ σ β E) (hbase64 : runtime.base64 = standardBase64)
    (events : Trace) (replies : List Reply) (w : World Objects Task (Except PyErr Signature))
    (h : (machine runtime).run imported events = some (replies, w))
    (k : Nat) (d : Deferred Task (Except PyErr Signature)) (result : Except PyErr Signature)
    (hd : w.deferred[k]? = some d) (hdone : d.status = .done result) :
    ∃ ending, .settle k ending ∈ events ∧
      (∀ message, ending = .cancelled message →
        result = .error (.rustPanic ("rust future panicked: " ++ message))) ∧
      ∀ found, ending = .ran found →
        (∀ opened ∈ source found d.task.value,
          Fits runtime.toBackend opened (some d.task.segmentDurationSeconds)) →
        Answers runtime.toBackend (source found d.task.value) d.task.segmentDurationSeconds
          result := by
  have hfate := run_fate h (fun d hd => by cases hd) hd
  rw [hdone] at hfate
  obtain ⟨before, ending, after, rfl, -, hfinish⟩ := hfate
  have hsettles := finish_settles hfinish
  refine ⟨ending, by simp, ?_, ?_⟩
  · rintro message rfl
    exact hsettles
  · rintro found rfl hfits
    rcases future_answers runtime hbase64 found d.task hfits with
      hrunning | ⟨answer, hanswer, hanswers⟩
    · rw [Settles, hrunning] at hsettles
      rcases hsettles with hreturned | ⟨hpanicked, -⟩
      · cases hreturned
      · cases hpanicked
    · rw [Settles, hanswer] at hsettles
      rcases hsettles with hreturned | ⟨hpanicked, -⟩
      · cases hreturned
        exact hanswers
      · cases hpanicked

/-- The record of the first call reads back to what is analysed of the pulse. -/
theorem session_answers : ∃ json,
    (machine pulseRuntime).run imported (opening ++ closing) =
      some (sessionReplies, sessionEnd json) ∧
    Reported breakingBackend (.cursor [0]) 12 json := by
  obtain ⟨json, hrun⟩ := session_runs
  refine ⟨json, hrun, ?_⟩
  obtain ⟨ending, hmem, -, hanswers⟩ := workers_answer pulseRuntime rfl _ _ _ hrun 0
    ⟨⟨.bytes [0], 12⟩, true, .done (.ok json)⟩ (.ok json) rfl rfl
  obtain rfl : ending = .ran surroundings := by simpa [opening, closing] using hmem
  obtain ⟨opened, hopened, hreported⟩ :=
    hanswers _ rfl fun opened _ => (breakingBackend_entire opened).fits
  cases hopened
  exact hreported

end Answered

end PythonRuns
