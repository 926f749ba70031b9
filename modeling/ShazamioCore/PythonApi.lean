import Mathlib
import ShazamioCore.DeferredCalls
import ShazamioCore.Recognition

/-!
# The objects handed to Python

A `Recognizer` and a `SearchParams` each hold a duration, checked where it is set. A call to
recognise takes the duration it finds, needs a running event loop, hands back a future of that
loop and leaves the rest to a worker, which runs when it comes to it. What a file holds by then,
the clock and the payload of a panic are found by the worker, not by the call.
-/
namespace PythonApi

open Decode Resample PcmSamples MachineInt SignatureFormat Algorithm Segment Communication
  Recognition DeferredCalls

inductive PyErr where
  | valueError (message : String)
  | signatureError (message : String)
  | rustPanic (message : String)
  | runtimeError (message : String)
  deriving DecidableEq, Repr

def validatedSegmentSeconds (value : UInt32) : Except PyErr UInt32 :=
  if value = 0 then .error (.valueError "segment_duration_seconds must be at least 1")
  else .ok value

structure SearchParams where
  segmentDurationSeconds : UInt32

def SearchParams.new (segmentDurationSeconds : Option UInt32) : Except PyErr SearchParams :=
  (validatedSegmentSeconds (segmentDurationSeconds.getD defaultSegmentSeconds)).map .mk

def SearchParams.setSegmentDurationSeconds (self : SearchParams) (value : UInt32) :
    Except PyErr SearchParams :=
  (validatedSegmentSeconds value).map fun seconds => { self with segmentDurationSeconds := seconds }

structure Recognizer where
  segmentDurationSeconds : UInt32

def Recognizer.new (segmentDurationSeconds : Option UInt32) : Except PyErr Recognizer :=
  (validatedSegmentSeconds (segmentDurationSeconds.getD defaultSegmentSeconds)).map .mk

def Recognizer.setSegmentDurationSeconds (self : Recognizer) (value : UInt32) :
    Except PyErr Recognizer :=
  (validatedSegmentSeconds value).map fun seconds => { self with segmentDurationSeconds := seconds }

inductive Value where
  | bytes (value : List UInt8)
  | path (value : String)

/-- The event loop a call finds, or what Python says where none is running. -/
inductive EventLoop where
  | running
  | absent (message : String)

/-- What the future of a call holds: the value and the duration taken with it. -/
structure Task where
  value : Value
  segmentDurationSeconds : UInt32

/-- `get_python_future`, as far as the call: the future belongs to the running loop. -/
def getPythonFuture (py : EventLoop) (task : Task) : Except PyErr Task :=
  match py with
  | .running => .ok task
  | .absent message => .error (.runtimeError message)

/-- The two calls to recognise, but for the value they take. -/
def Recognizer.recognize (self : Recognizer) (py : EventLoop) (value : Value)
    (options : Option SearchParams) : Except PyErr Task := do
  let searchOptions ←
    match options with
    | some options => .ok options
    | none => SearchParams.new (some self.segmentDurationSeconds)
  getPythonFuture py ⟨value, searchOptions.segmentDurationSeconds⟩

def Recognizer.recognizeBytes (self : Recognizer) (py : EventLoop) (value : List UInt8)
    (options : Option SearchParams) : Except PyErr Task :=
  self.recognize py (.bytes value) options

def Recognizer.recognizePath (self : Recognizer) (py : EventLoop) (value : String)
    (options : Option SearchParams) : Except PyErr Task :=
  self.recognize py (.path value) options

section Worker

/-- The backend with what the report to Python takes: the checksum, the alphabet, and the
words of the errors. -/
structure Runtime (A P δ α σ β E : Type) extends Backend A P δ α σ β E where
  crc32 : List UInt8 → UInt32
  base64 : List UInt8 → String
  describe : Failure E → String
  describeJson : JsonError → String

inductive Payload where
  | str (message : String)
  | string (message : String)
  | other

def panicMessage : Payload → String
  | .str message => message
  | .string message => message
  | .other => "unknown error"

inductive JoinError where
  | panic (payload : Payload)
  | cancelled (message : String)

def JoinError.message : JoinError → String
  | .panic payload => panicMessage payload
  | .cancelled message => message

/-- What a worker finds when it runs. -/
structure Surroundings where
  fuel : Nat
  now : Option Nat
  openFile : String → Except ErrorKind (List UInt8)
  payload : Payload

inductive Ending where
  | ran (surroundings : Surroundings)
  | cancelled (message : String)

variable {A P δ α σ β E : Type}

def unwrapDecodedSignature (runtime : Runtime A P δ α σ β E) (now : Option Nat)
    (data : DecodedSignature) : Outcome PyErr Signature :=
  match getSignatureJson runtime.overflow runtime.crc32 runtime.base64 now data with
  | none => .panicked
  | some (.error e) => .returned (.error (.signatureError (runtime.describeJson e)))
  | some (.ok signature) => .returned (.ok signature)

/-- What becomes of a made signature, or of its failure, under the name of its source. -/
def report (runtime : Runtime A P δ α σ β E) (now : Option Nat) (source : String) :
    Outcome (Failure E) DecodedSignature → Outcome PyErr Signature
  | .running => .running
  | .panicked => .panicked
  | .returned (.error error) =>
    .returned (.error (.signatureError (source ++ ": " ++ runtime.describe error)))
  | .returned (.ok data) => unwrapDecodedSignature runtime now data

variable [LinearOrder α] [F32 α] [LinearOrder β] [F64 β]

def future (runtime : Runtime A P δ α σ β E) (found : Surroundings) (task : Task) :
    Outcome PyErr Signature :=
  match task.value with
  | .bytes value =>
    report runtime found.now "the byte payload"
      (makeSignatureFromBytes runtime.toBackend found.fuel value
        (some task.segmentDurationSeconds))
  | .path value =>
    report runtime found.now value
      (makeSignatureFromFile runtime.toBackend found.fuel (found.openFile value)
        (some task.segmentDurationSeconds))

/-- A worker joined: a panic of it, or that it was cancelled, is an error of the join. -/
def join (runtime : Runtime A P δ α σ β E) (task : Task) :
    Ending → Option (Except JoinError (Except PyErr Signature))
  | .cancelled message => some (.error (.cancelled message))
  | .ran found =>
    match future runtime found task with
    | .running => none
    | .panicked => some (.error (.panic found.payload))
    | .returned result => some (.ok result)

/-- `get_python_future`, from the join on. -/
def unwrapJoined {τ : Type} : Except JoinError (Except PyErr τ) → Except PyErr τ
  | .ok result => result
  | .error error => .error (.rustPanic ("rust future panicked: " ++ error.message))

end Worker

section Calls

/-- The objects Python holds, by the order they were made in. -/
structure Objects where
  recognizers : List Recognizer
  searchParams : List SearchParams

inductive Call where
  | newRecognizer (segmentDurationSeconds : Option UInt32)
  | newSearchParams (segmentDurationSeconds : Option UInt32)
  | getRecognizer (i : Nat)
  | getSearchParams (j : Nat)
  | setRecognizer (i : Nat) (value : UInt32)
  | setSearchParams (j : Nat) (value : UInt32)
  | recognizeBytes (i : Nat) (py : EventLoop) (value : List UInt8) (options : Option Nat)
  | recognizePath (i : Nat) (py : EventLoop) (value : String) (options : Option Nat)

inductive Reply where
  | raised (error : PyErr)
  | recognizer (i : Nat)
  | searchParams (j : Nat)
  | seconds (value : UInt32)
  | done
  | future

def Objects.named (objects : Objects) (i : Nat) (options : Option Nat) :
    Option (Recognizer × Option SearchParams) := do
  let recognizer ← objects.recognizers[i]?
  match options with
  | none => return (recognizer, none)
  | some j => return (recognizer, some (← objects.searchParams[j]?))

/-- A call that raises leaves the objects as they are. -/
def Objects.attempt {τ : Type} (objects : Objects) (result : Except PyErr τ)
    (done : τ → Reply × Objects × Option Task) : Reply × Objects × Option Task :=
  match result with
  | .error error => (.raised error, objects, none)
  | .ok value => done value

theorem attempt_same {τ : Type} {objects objects' : Objects} {result : Except PyErr τ}
    {reply reply' : Reply} {task' : Option Task} {task : τ → Option Task}
    (h : objects.attempt result (fun value => (reply, objects, task value)) =
      (reply', objects', task')) : objects' = objects := by
  cases result <;> cases h <;> rfl

/-- A call on an object there is not cannot be made. -/
def call (objects : Objects) : Call → Option (Reply × Objects × Option Task)
  | .newRecognizer segmentDurationSeconds =>
    some (objects.attempt (Recognizer.new segmentDurationSeconds) fun recognizer =>
      (.recognizer objects.recognizers.length,
        { objects with recognizers := objects.recognizers ++ [recognizer] }, none))
  | .newSearchParams segmentDurationSeconds =>
    some (objects.attempt (SearchParams.new segmentDurationSeconds) fun params =>
      (.searchParams objects.searchParams.length,
        { objects with searchParams := objects.searchParams ++ [params] }, none))
  | .getRecognizer i =>
    objects.recognizers[i]?.map fun self => (.seconds self.segmentDurationSeconds, objects, none)
  | .getSearchParams j =>
    objects.searchParams[j]?.map fun self => (.seconds self.segmentDurationSeconds, objects, none)
  | .setRecognizer i value =>
    objects.recognizers[i]?.map fun self =>
      objects.attempt (self.setSegmentDurationSeconds value) fun self =>
        (.done, { objects with recognizers := objects.recognizers.set i self }, none)
  | .setSearchParams j value =>
    objects.searchParams[j]?.map fun self =>
      objects.attempt (self.setSegmentDurationSeconds value) fun self =>
        (.done, { objects with searchParams := objects.searchParams.set j self }, none)
  | .recognizeBytes i py value options =>
    (objects.named i options).map fun (self, options) =>
      objects.attempt (self.recognizeBytes py value options) fun task =>
        (.future, objects, some task)
  | .recognizePath i py value options =>
    (objects.named i options).map fun (self, options) =>
      objects.attempt (self.recognizePath py value options) fun task =>
        (.future, objects, some task)

/-- The module as Python sees it: calls, and the futures they hand back. -/
def machine {A P δ α σ β E : Type} [LinearOrder α] [F32 α] [LinearOrder β] [F64 β]
    (runtime : Runtime A P δ α σ β E) :
    Machine Objects Call Reply Task Ending (Except PyErr Signature) where
  call := call
  finish task ending := (join runtime task ending).map unwrapJoined

/-- The calls of a program, the workers that settle its futures and the futures it cancels, in
any order. -/
abbrev Trace := List (DeferredCalls.Event Call Ending)

def imported : World Objects Task (Except PyErr Signature) := ⟨⟨[], []⟩, []⟩

end Calls

section Durations

structure Objects.Valid (objects : Objects) : Prop where
  recognizers : ∀ self ∈ objects.recognizers, self.segmentDurationSeconds ≠ 0
  searchParams : ∀ self ∈ objects.searchParams, self.segmentDurationSeconds ≠ 0

/-- The duration a call would have an object hold. -/
def Call.newSeconds : Call → Option UInt32
  | .newRecognizer segmentDurationSeconds | .newSearchParams segmentDurationSeconds =>
    some (segmentDurationSeconds.getD defaultSegmentSeconds)
  | .setRecognizer _ value | .setSearchParams _ value => some value
  | _ => none

/-- What Python says to a call that needs an event loop where none is running. -/
def Call.noLoop : Call → Option String
  | .recognizeBytes _ (.absent message) _ _ | .recognizePath _ (.absent message) _ _ =>
    some message
  | _ => none

/-- The errors a call is refused with: it would have an object hold zero, or it needs an event
loop and there is none. -/
def Call.Refused (c : Call) (error : PyErr) : Prop :=
  (c.newSeconds = some 0 ∧
    error = .valueError "segment_duration_seconds must be at least 1") ∨
  ∃ message, c.noLoop = some message ∧ error = .runtimeError message

theorem validatedSegmentSeconds_pos {value : UInt32} (h : value ≠ 0) :
    validatedSegmentSeconds value = .ok value := if_neg h

theorem Objects.named_eq_some {objects : Objects} {i : Nat} {options : Option Nat}
    {self : Recognizer} {params : Option SearchParams}
    (h : objects.named i options = some (self, params)) :
    self ∈ objects.recognizers ∧ ∀ p ∈ params, p ∈ objects.searchParams := by
  rw [Objects.named, Option.bind_eq_bind, Option.bind_eq_some_iff] at h
  obtain ⟨self', hself, h⟩ := h
  cases options with
  | none =>
    cases h
    exact ⟨List.mem_of_getElem? hself, by simp⟩
  | some j =>
    rw [Option.bind_eq_bind, Option.bind_eq_some_iff] at h
    obtain ⟨params', hparams, h⟩ := h
    cases h
    refine ⟨List.mem_of_getElem? hself, fun p hp => ?_⟩
    cases hp
    exact List.mem_of_getElem? hparams

/-- The duration a call to recognise takes: that of its options, or the recognizer's own. -/
def chosen (self : Recognizer) (options : Option SearchParams) : UInt32 :=
  (options.map SearchParams.segmentDurationSeconds).getD self.segmentDurationSeconds

/-- Among valid objects the duration a call to recognise takes is not zero, and all it needs is
an event loop. -/
theorem recognize_chosen {objects : Objects} (hvalid : objects.Valid) {i : Nat}
    {options : Option Nat} {self : Recognizer} {params : Option SearchParams}
    (h : objects.named i options = some (self, params)) (py : EventLoop) (value : Value) :
    self.recognize py value params = getPythonFuture py ⟨value, chosen self params⟩ ∧
      chosen self params ≠ 0 := by
  obtain ⟨hself, hparams⟩ := Objects.named_eq_some h
  cases params with
  | none =>
    have hpos := hvalid.recognizers self hself
    refine ⟨?_, hpos⟩
    simp only [Recognizer.recognize, SearchParams.new, Option.getD_some,
      validatedSegmentSeconds_pos hpos]
    rfl
  | some params => exact ⟨rfl, hvalid.searchParams params (hparams params rfl)⟩

/-- A duration of zero is refused, and nothing else is done. -/
theorem attempt_validated {τ : Type} (objects : Objects) (value : UInt32) (build : UInt32 → τ)
    (done : τ → Reply × Objects × Option Task) :
    objects.attempt ((validatedSegmentSeconds value).map build) done =
      if value = 0 then
        (.raised (.valueError "segment_duration_seconds must be at least 1"), objects, none)
      else done (build value) := by
  split
  · rename_i hzero
    rw [hzero]
    rfl
  · rename_i hpos
    rw [validatedSegmentSeconds_pos hpos]
    rfl

/-- What a call does to objects none of which holds zero: where it is refused it raises and does
nothing else, and any other keeps them so and takes no zero with its task. -/
structure Obeys (objects : Objects) (c : Call) (reply : Reply) (objects' : Objects)
    (task : Option Task) : Prop where
  valid : objects'.Valid
  taken : ∀ t ∈ task, t.segmentDurationSeconds ≠ 0
  raised : ∀ error, reply = .raised error ↔ c.Refused error
  unchanged : ∀ error, c.Refused error → objects' = objects ∧ task = none

/-- A call that sets a duration obeys, if what it puts in place is valid. -/
theorem obeys_attempt {τ : Type} {objects : Objects} (hvalid : objects.Valid) {c : Call}
    {value : UInt32} (hc : c.newSeconds = some value) (hloop : c.noLoop = none)
    (build : UInt32 → τ) (put : τ → Reply × Objects)
    (hput : value ≠ 0 → (put (build value)).2.Valid ∧ ∀ e, (put (build value)).1 ≠ .raised e)
    {reply : Reply} {objects' : Objects} {task : Option Task}
    (h : objects.attempt ((validatedSegmentSeconds value).map build)
      (fun x => ((put x).1, (put x).2, none)) = (reply, objects', task)) :
    Obeys objects c reply objects' task := by
  have hrefused : ∀ error, c.Refused error ↔ value = 0 ∧
      error = .valueError "segment_duration_seconds must be at least 1" := by
    intro error
    simp [Call.Refused, hc, hloop]
  rw [attempt_validated] at h
  split at h
  · rename_i hzero
    cases h
    refine ⟨hvalid, by simp, fun error => ?_, fun _ _ => ⟨rfl, rfl⟩⟩
    rw [hrefused, Reply.raised.injEq, eq_comm]
    simp [hzero]
  · rename_i hpos
    obtain ⟨hvalid', haccepted⟩ := hput hpos
    cases h
    have hnot : ∀ error, ¬c.Refused error := fun error hzero => hpos ((hrefused error).mp hzero).1
    exact ⟨hvalid', by simp, fun error => iff_of_false (haccepted error) (hnot error),
      fun error herror => absurd herror (hnot error)⟩

/-- A call that only reads obeys. -/
theorem obeys_read {objects : Objects} (hvalid : objects.Valid) {c : Call}
    (hc : c.newSeconds = none) (hloop : c.noLoop = none) {reply : Reply}
    (hreply : ∀ error, reply ≠ .raised error) : Obeys objects c reply objects none := by
  have hnot : ∀ error, ¬c.Refused error := by
    intro error
    simp [Call.Refused, hc, hloop]
  exact ⟨hvalid, by simp, fun error => iff_of_false (hreply error) (hnot error),
    fun error herror => absurd herror (hnot error)⟩

def recognizeCall (i : Nat) (py : EventLoop) (options : Option Nat) : Value → Call
  | .bytes value => .recognizeBytes i py value options
  | .path value => .recognizePath i py value options

/-- A call to recognise leaves a task with the duration it takes, or has no loop to leave it in. -/
theorem call_recognize {objects : Objects} (hvalid : objects.Valid) {i : Nat} {py : EventLoop}
    {options : Option Nat} {value : Value} {reply : Reply} {objects' : Objects}
    {task : Option Task}
    (h : call objects (recognizeCall i py options value) = some (reply, objects', task)) :
    ∃ self params, objects.named i options = some (self, params) ∧ chosen self params ≠ 0 ∧
      (reply, objects', task) = objects.attempt (getPythonFuture py ⟨value, chosen self params⟩)
        fun task => (.future, objects, some task) := by
  cases value with
  | bytes value =>
    obtain ⟨⟨self, params⟩, hnamed, heq⟩ := Option.map_eq_some_iff.mp h
    obtain ⟨htask, hpos⟩ := recognize_chosen hvalid hnamed py (.bytes value)
    simp only [Recognizer.recognizeBytes, htask] at heq
    exact ⟨self, params, hnamed, hpos, heq.symm⟩
  | path value =>
    obtain ⟨⟨self, params⟩, hnamed, heq⟩ := Option.map_eq_some_iff.mp h
    obtain ⟨htask, hpos⟩ := recognize_chosen hvalid hnamed py (.path value)
    simp only [Recognizer.recognizePath, htask] at heq
    exact ⟨self, params, hnamed, hpos, heq.symm⟩

/-- A call to recognise is refused only for want of a loop. -/
theorem obeys_recognize {objects : Objects} (hvalid : objects.Valid) {i : Nat} {py : EventLoop}
    {options : Option Nat} {value : Value} {reply : Reply} {objects' : Objects}
    {task : Option Task}
    (h : call objects (recognizeCall i py options value) = some (reply, objects', task)) :
    Obeys objects (recognizeCall i py options value) reply objects' task := by
  obtain ⟨self, params, -, hpos, heq⟩ := call_recognize hvalid h
  have hseconds : (recognizeCall i py options value).newSeconds = none := by
    cases value <;> rfl
  cases py with
  | running =>
    have hnot : ∀ error, ¬(recognizeCall i .running options value).Refused error := by
      rintro error (⟨hzero, -⟩ | ⟨message, hmessage, -⟩)
      · cases hseconds.symm.trans hzero
      · cases value <;> cases hmessage
    cases heq
    exact ⟨hvalid, by simpa using hpos, fun error => iff_of_false (by simp) (hnot error),
      fun error herror => absurd herror (hnot error)⟩
  | absent message =>
    have hloop : (recognizeCall i (.absent message) options value).noLoop = some message := by
      cases value <;> rfl
    cases heq
    refine ⟨hvalid, by simp, fun error => ?_, fun _ _ => ⟨rfl, rfl⟩⟩
    simp [Call.Refused, hseconds, hloop, eq_comm]

/-- On valid objects any call is refused where it must be, and else keeps them valid. -/
theorem call_obeys {objects objects' : Objects} (hvalid : objects.Valid) {c : Call} {reply : Reply}
    {task : Option Task} (h : call objects c = some (reply, objects', task)) :
    Obeys objects c reply objects' task := by
  cases c with
  | newRecognizer segmentDurationSeconds =>
    refine obeys_attempt hvalid rfl rfl Recognizer.mk (fun self => (_, _)) (fun hpos => ?_)
      (Option.some.inj h)
    refine ⟨⟨fun self hself => ?_, hvalid.searchParams⟩, by simp⟩
    rcases List.mem_append.mp hself with hself | hself
    · exact hvalid.recognizers self hself
    · rwa [List.mem_singleton.mp hself]
  | newSearchParams segmentDurationSeconds =>
    refine obeys_attempt hvalid rfl rfl SearchParams.mk (fun self => (_, _)) (fun hpos => ?_)
      (Option.some.inj h)
    refine ⟨⟨hvalid.recognizers, fun self hself => ?_⟩, by simp⟩
    rcases List.mem_append.mp hself with hself | hself
    · exact hvalid.searchParams self hself
    · rwa [List.mem_singleton.mp hself]
  | getRecognizer i =>
    obtain ⟨self, hself, heq⟩ := Option.map_eq_some_iff.mp h
    cases heq
    exact obeys_read hvalid rfl rfl (by simp)
  | getSearchParams j =>
    obtain ⟨self, hself, heq⟩ := Option.map_eq_some_iff.mp h
    cases heq
    exact obeys_read hvalid rfl rfl (by simp)
  | setRecognizer i value =>
    obtain ⟨self, -, heq⟩ := Option.map_eq_some_iff.mp h
    refine obeys_attempt hvalid rfl rfl Recognizer.mk
      (fun self => (.done, { objects with recognizers := objects.recognizers.set i self }))
      (fun hpos => ?_) heq
    refine ⟨⟨fun self hself => ?_, hvalid.searchParams⟩, by simp⟩
    rcases List.mem_or_eq_of_mem_set hself with hself | rfl
    · exact hvalid.recognizers self hself
    · exact hpos
  | setSearchParams j value =>
    obtain ⟨self, -, heq⟩ := Option.map_eq_some_iff.mp h
    refine obeys_attempt hvalid rfl rfl SearchParams.mk
      (fun self => (.done, { objects with searchParams := objects.searchParams.set j self }))
      (fun hpos => ?_) heq
    refine ⟨⟨hvalid.recognizers, fun self hself => ?_⟩, by simp⟩
    rcases List.mem_or_eq_of_mem_set hself with hself | rfl
    · exact hvalid.searchParams self hself
    · exact hpos
  | recognizeBytes i py value options =>
    have hrecognize : call objects (recognizeCall i py options (.bytes value)) = _ := h
    exact obeys_recognize hvalid hrecognize
  | recognizePath i py value options =>
    have hrecognize : call objects (recognizeCall i py options (.path value)) = _ := h
    exact obeys_recognize hvalid hrecognize

end Durations

section Held

inductive Kind where
  | recognizer
  | searchParams

/-- The durations the objects of a kind hold, by the order the objects were made in. -/
def Objects.seconds (objects : Objects) : Kind → List UInt32
  | .recognizer => objects.recognizers.map Recognizer.segmentDurationSeconds
  | .searchParams => objects.searchParams.map SearchParams.segmentDurationSeconds

/-- The duration a call makes an object of a kind with. -/
def Call.makes : Kind → Call → Option UInt32
  | .recognizer, .newRecognizer segmentDurationSeconds
  | .searchParams, .newSearchParams segmentDurationSeconds =>
    let seconds := segmentDurationSeconds.getD defaultSegmentSeconds
    if seconds = 0 then none else some seconds
  | _, _ => none

/-- The object of a kind that a call assigns a duration to, and the duration. -/
def Call.assigns : Kind → Call → Option (Nat × UInt32)
  | .recognizer, .setRecognizer i value | .searchParams, .setSearchParams i value =>
    if value = 0 then none else some (i, value)
  | _, _ => none

def made (calls : List Call) (kind : Kind) : List UInt32 :=
  calls.filterMap (Call.makes kind)

def assigned (calls : List Call) (kind : Kind) (i : Nat) : List UInt32 :=
  calls.filterMap fun c => (c.assigns kind).bind fun (j, seconds) =>
    if j = i then some seconds else none

/-- The duration last assigned to an object, or else the one it was made with. -/
def lastSet (calls : List Call) (kind : Kind) (i : Nat) : Option UInt32 :=
  (assigned calls kind i).getLast?.or (made calls kind)[i]?

/-- The duration a call to recognise is to take: that of the options it names, or else that of
the recognizer. -/
def lastNamed (calls : List Call) (i : Nat) : Option Nat → Option UInt32
  | none => lastSet calls .recognizer i
  | some j => lastSet calls .searchParams j

/-- Objects and the calls they come from: each holds what was last set. -/
structure Holds (calls : List Call) (objects : Objects) : Prop where
  count : ∀ kind, (objects.seconds kind).length = (made calls kind).length
  held : ∀ kind i, (objects.seconds kind)[i]? = lastSet calls kind i

/-- All that a call does to the durations held. -/
theorem call_seconds {objects objects' : Objects} {c : Call} {reply : Reply} {task : Option Task}
    (h : call objects c = some (reply, objects', task)) (kind : Kind) :
    (∃ i seconds, c.assigns kind = some (i, seconds) ∧ c.makes kind = none ∧
      i < (objects.seconds kind).length ∧
      objects'.seconds kind = (objects.seconds kind).set i seconds) ∨
    (c.assigns kind = none ∧
      objects'.seconds kind = objects.seconds kind ++ (c.makes kind).toList) := by
  cases c with
  | newRecognizer segmentDurationSeconds =>
    have hnew := Option.some.inj h
    rw [Recognizer.new, attempt_validated] at hnew
    right
    split at hnew
    · rename_i hzero
      cases hnew
      cases kind <;> simp [Call.assigns, Call.makes, hzero]
    · rename_i hpos
      cases hnew
      cases kind <;> simp [Call.assigns, Call.makes, hpos, Objects.seconds]
  | newSearchParams segmentDurationSeconds =>
    have hnew := Option.some.inj h
    rw [SearchParams.new, attempt_validated] at hnew
    right
    split at hnew
    · rename_i hzero
      cases hnew
      cases kind <;> simp [Call.assigns, Call.makes, hzero]
    · rename_i hpos
      cases hnew
      cases kind <;> simp [Call.assigns, Call.makes, hpos, Objects.seconds]
  | setRecognizer i value =>
    obtain ⟨self, hself, heq⟩ := Option.map_eq_some_iff.mp h
    have hlt := (List.getElem?_eq_some_iff.mp hself).1
    rw [Recognizer.setSegmentDurationSeconds, attempt_validated] at heq
    split at heq
    · rename_i hzero
      cases heq
      right
      cases kind <;> simp [Call.assigns, Call.makes, hzero]
    · rename_i hpos
      cases heq
      cases kind with
      | recognizer =>
        left
        exact ⟨i, value, if_neg hpos, rfl, by simpa [Objects.seconds] using hlt,
          by simp [Objects.seconds, List.map_set]⟩
      | searchParams => exact Or.inr ⟨rfl, by simp [Call.makes, Objects.seconds]⟩
  | setSearchParams j value =>
    obtain ⟨self, hself, heq⟩ := Option.map_eq_some_iff.mp h
    have hlt := (List.getElem?_eq_some_iff.mp hself).1
    rw [SearchParams.setSegmentDurationSeconds, attempt_validated] at heq
    split at heq
    · rename_i hzero
      cases heq
      right
      cases kind <;> simp [Call.assigns, Call.makes, hzero]
    · rename_i hpos
      cases heq
      cases kind with
      | recognizer => exact Or.inr ⟨rfl, by simp [Call.makes, Objects.seconds]⟩
      | searchParams =>
        left
        exact ⟨j, value, if_neg hpos, rfl, by simpa [Objects.seconds] using hlt,
          by simp [Objects.seconds, List.map_set]⟩
  | getRecognizer i =>
    obtain ⟨self, hself, heq⟩ := Option.map_eq_some_iff.mp h
    cases heq
    cases kind <;> simp [Call.assigns, Call.makes]
  | getSearchParams j =>
    obtain ⟨self, hself, heq⟩ := Option.map_eq_some_iff.mp h
    cases heq
    cases kind <;> simp [Call.assigns, Call.makes]
  | recognizeBytes i py value options =>
    obtain ⟨⟨self, params⟩, hnamed, heq⟩ := Option.map_eq_some_iff.mp h
    obtain rfl := attempt_same heq
    cases kind <;> simp [Call.assigns, Call.makes]
  | recognizePath i py value options =>
    obtain ⟨⟨self, params⟩, hnamed, heq⟩ := Option.map_eq_some_iff.mp h
    obtain rfl := attempt_same heq
    cases kind <;> simp [Call.assigns, Call.makes]

/-- The step of the history: one more call, and every object still holds what was last set. -/
theorem holds_call {calls : List Call} {objects objects' : Objects} (hholds : Holds calls objects)
    {c : Call} {reply : Reply} {task : Option Task}
    (h : call objects c = some (reply, objects', task)) : Holds (calls ++ [c]) objects' := by
  have hmade : ∀ kind, made (calls ++ [c]) kind =
      made calls kind ++ (c.makes kind).toList := by
    intro kind
    simp only [made, List.filterMap_append, List.filterMap_cons, List.filterMap_nil]
    cases c.makes kind <;> rfl
  have hassigned : ∀ kind i, assigned (calls ++ [c]) kind i = assigned calls kind i ++
      ((c.assigns kind).bind fun (j, seconds) => if j = i then some seconds else none).toList := by
    intro kind i
    simp only [assigned, List.filterMap_append, List.filterMap_cons, List.filterMap_nil]
    cases (c.assigns kind).bind fun (j, seconds) => if j = i then some seconds else none <;> rfl
  constructor
  · intro kind
    rcases call_seconds h kind with ⟨i, seconds, -, hmakes, -, hseconds⟩ | ⟨-, hseconds⟩
    · rw [hseconds, List.length_set, hmade, hmakes, hholds.count]
      simp
    · rw [hseconds, hmade, List.length_append, List.length_append, hholds.count]
  · intro kind i
    rw [lastSet, hmade, hassigned]
    have hlast := hholds.held kind i
    rw [lastSet] at hlast
    rcases call_seconds h kind with ⟨j, seconds, hassigns, hmakes, hlt, hseconds⟩ |
      ⟨hassigns, hseconds⟩
    · rw [hseconds, hassigns, hmakes]
      by_cases hij : j = i
      · subst hij
        simp [List.getElem?_set_self hlt]
      · simp [List.getElem?_set_ne hij, hij, hlast]
    · rw [hseconds, hassigns, List.getElem?_append, List.getElem?_append, hholds.count]
      -- A place past the objects was never assigned to: nothing is held there.
      by_cases hlt : i < (made calls kind).length
      · simpa [hlt] using hlast
      · have hnone : (objects.seconds kind)[i]? = none := by
          rw [List.getElem?_eq_none_iff, hholds.count]
          omega
        have hunassigned := hlast.symm.trans hnone
        rw [Option.or_eq_none_iff] at hunassigned
        simp [hlt, hunassigned.1]

theorem holds_imported : Holds [] imported.state := by
  constructor
  · rintro (_ | _) <;> rfl
  · rintro (_ | _) i <;> rfl

theorem holds_named {calls : List Call} {objects : Objects} (hholds : Holds calls objects) {i : Nat}
    {options : Option Nat} {self : Recognizer} {params : Option SearchParams}
    (h : objects.named i options = some (self, params)) :
    lastNamed calls i options = some (chosen self params) := by
  rw [Objects.named, Option.bind_eq_bind, Option.bind_eq_some_iff] at h
  obtain ⟨self', hself, h⟩ := h
  cases options with
  | none =>
    cases h
    rw [lastNamed, ← hholds.held, Objects.seconds, List.getElem?_map, hself]
    rfl
  | some j =>
    rw [Option.bind_eq_bind, Option.bind_eq_some_iff] at h
    obtain ⟨params', hparams, h⟩ := h
    cases h
    rw [lastNamed, ← hholds.held, Objects.seconds, List.getElem?_map, hparams]
    rfl

def getCall : Kind → Nat → Call
  | .recognizer, i => .getRecognizer i
  | .searchParams, j => .getSearchParams j

theorem call_get {objects objects' : Objects} {kind : Kind} {i : Nat} {reply : Reply}
    {task : Option Task} (h : call objects (getCall kind i) = some (reply, objects', task)) :
    objects' = objects ∧ task = none ∧
      ∃ seconds, reply = .seconds seconds ∧ (objects.seconds kind)[i]? = some seconds := by
  cases kind with
  | recognizer =>
    obtain ⟨self, hself, heq⟩ := Option.map_eq_some_iff.mp h
    cases heq
    refine ⟨rfl, rfl, self.segmentDurationSeconds, rfl, ?_⟩
    rw [Objects.seconds, List.getElem?_map, hself, Option.map_some]
  | searchParams =>
    obtain ⟨self, hself, heq⟩ := Option.map_eq_some_iff.mp h
    cases heq
    refine ⟨rfl, rfl, self.segmentDurationSeconds, rfl, ?_⟩
    rw [Objects.seconds, List.getElem?_map, hself, Option.map_some]

end Held

section Runs

variable {A P δ α σ β E : Type} [LinearOrder α] [F32 α] [LinearOrder β] [F64 β]
  {runtime : Runtime A P δ α σ β E}

theorem imported_run_valid {events : Trace} {replies : List Reply}
    {w : World Objects Task (Except PyErr Signature)}
    (h : (machine runtime).run imported events = some (replies, w)) :
    w.state.Valid ∧ ∀ d ∈ w.deferred, d.task.segmentDurationSeconds ≠ 0 := by
  apply run_invariant Objects.Valid (fun task => task.segmentDurationSeconds ≠ 0) ?_ h
  · refine ⟨⟨?_, ?_⟩, ?_⟩
    · exact fun _ hself => absurd hself List.not_mem_nil
    · exact fun _ hself => absurd hself List.not_mem_nil
    · exact fun _ hd => absurd hd List.not_mem_nil
  · intro objects c reply objects' task hvalid hcall
    have hobeys := call_obeys hvalid hcall
    exact ⟨hobeys.valid, hobeys.taken⟩

end Runs

end PythonApi
