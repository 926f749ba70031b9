import Mathlib

/-!
# Calls that leave work behind

A machine takes calls. A call changes its state at once and may leave a task behind, with a
future for what the task comes to. A worker ends the task at any later moment, between any two
calls and in any order. The future may be cancelled before: the work goes on, and what it comes
to is dropped.
-/
namespace DeferredCalls

/-- What a call does, where it can be made, and what a task comes to, if it comes to an end. -/
structure Machine (σ κ ρ τ ω ν : Type) where
  call : σ → κ → Option (ρ × σ × Option τ)
  finish : τ → ω → Option ν

inductive Status (ν : Type) where
  | pending
  | cancelled
  | done (result : ν)

namespace Status

variable {ν : Type}

/-- A result comes through to a future that is still awaited. -/
def deliver (result : ν) : Status ν → Status ν
  | pending => done result
  | status => status

def cancel : Status ν → Status ν
  | pending => cancelled
  | status => status

end Status

/-- A task, whether its worker has ended, and its future. -/
structure Deferred (τ ν : Type) where
  task : τ
  ended : Bool
  status : Status ν

structure World (σ τ ν : Type) where
  state : σ
  deferred : List (Deferred τ ν)

inductive Event (κ ω : Type) where
  | call (call : κ)
  | settle (k : Nat) (ending : ω)
  | cancel (k : Nat)

variable {σ κ ρ τ ω ν : Type}

def Deferred.left (task : τ) : Deferred τ ν := ⟨task, false, .pending⟩

def Event.call? : Event κ ω → Option κ
  | .call c => some c
  | _ => none

def calls (events : List (Event κ ω)) : List κ := events.filterMap Event.call?

namespace Machine

variable (m : Machine σ κ ρ τ ω ν)

def makeCall (w : World σ τ ν) (c : κ) : Option (ρ × World σ τ ν) :=
  (m.call w.state c).map fun (reply, state, task) =>
    (reply, ⟨state, w.deferred ++ task.toList.map .left⟩)

/-- A worker ends once. -/
def settle (w : World σ τ ν) (k : Nat) (ending : ω) : Option (World σ τ ν) :=
  match w.deferred[k]? with
  | some ⟨task, false, status⟩ => (m.finish task ending).map fun result =>
    { w with deferred := w.deferred.set k ⟨task, true, status.deliver result⟩ }
  | _ => none

def step (w : World σ τ ν) : Event κ ω → Option (Option ρ × World σ τ ν)
  | .call c => (m.makeCall w c).map fun (reply, w) => (some reply, w)
  | .settle k ending => (m.settle w k ending).map fun w => (none, w)
  | .cancel k => w.deferred[k]?.map fun d =>
    (none, { w with deferred := w.deferred.set k { d with status := d.status.cancel } })

/-- The replies to the calls, and the world the events leave. -/
def run : World σ τ ν → List (Event κ ω) → Option (List ρ × World σ τ ν)
  | w, [] => some ([], w)
  | w, event :: events => do
    let (reply, w) ← m.step w event
    let (replies, w) ← run w events
    return (reply.toList ++ replies, w)

/-- The calls alone, with nothing in between. -/
def runCalls : σ → List κ → Option (List ρ × σ)
  | s, [] => some ([], s)
  | s, c :: calls => do
    let (reply, s, _) ← m.call s c
    let (replies, s) ← runCalls s calls
    return (reply :: replies, s)

end Machine

/-- How a future comes to its status: the first of the events that bear on it decides. -/
def Fate (m : Machine σ κ ρ τ ω ν) (task : τ) (k : Nat) (events : List (Event κ ω)) :
    Status ν → Prop
  | .pending => .cancel k ∉ events ∧ ∀ ending, .settle k ending ∉ events
  | .cancelled => ∃ before after, events = before ++ .cancel k :: after ∧
    ∀ ending, .settle k ending ∉ before
  | .done result => ∃ before ending after, events = before ++ .settle k ending :: after ∧
    .cancel k ∉ before ∧ m.finish task ending = some result

section Steps

variable {m : Machine σ κ ρ τ ω ν}

theorem makeCall_eq_some {w w' : World σ τ ν} {c : κ} {reply : ρ}
    (h : m.makeCall w c = some (reply, w')) :
    ∃ task, m.call w.state c = some (reply, w'.state, task) ∧
      w'.deferred = w.deferred ++ task.toList.map .left := by
  obtain ⟨⟨reply', state, task⟩, hcall, heq⟩ := Option.map_eq_some_iff.mp h
  cases heq
  exact ⟨task, hcall, rfl⟩

/-- A call that leaves no task, and the state as it was, does nothing. -/
theorem makeCall_idle {w w' : World σ τ ν} (hstate : w'.state = w.state)
    (hdeferred : w'.deferred = w.deferred ++ (none : Option τ).toList.map .left) : w' = w := by
  obtain ⟨state', deferred'⟩ := w'
  obtain ⟨state, deferred⟩ := w
  obtain rfl : state' = state := hstate
  obtain rfl : deferred' = deferred := by simpa using hdeferred
  rfl

/-- All that an event can do. -/
theorem step_cases {w w' : World σ τ ν} {event : Event κ ω} {reply : Option ρ}
    (h : m.step w event = some (reply, w')) :
    (∃ c r task, event = .call c ∧ reply = some r ∧ m.call w.state c = some (r, w'.state, task) ∧
      w'.deferred = w.deferred ++ task.toList.map .left) ∨
    (∃ k ending task status result, event = .settle k ending ∧ reply = none ∧
      w.deferred[k]? = some ⟨task, false, status⟩ ∧ m.finish task ending = some result ∧
      w'.state = w.state ∧ w'.deferred = w.deferred.set k ⟨task, true, status.deliver result⟩) ∨
    ∃ k d, event = .cancel k ∧ reply = none ∧ w.deferred[k]? = some d ∧ w'.state = w.state ∧
      w'.deferred = w.deferred.set k { d with status := d.status.cancel } := by
  cases event with
  | call c =>
    obtain ⟨⟨r, after⟩, hmade, heq⟩ := Option.map_eq_some_iff.mp h
    cases heq
    obtain ⟨task, hcall, hdeferred⟩ := makeCall_eq_some hmade
    exact Or.inl ⟨c, r, task, rfl, rfl, hcall, hdeferred⟩
  | settle k ending =>
    obtain ⟨after, hsettled, heq⟩ := Option.map_eq_some_iff.mp h
    cases heq
    unfold Machine.settle at hsettled
    split at hsettled
    · rename_i task status htask
      obtain ⟨result, hresult, rfl⟩ := Option.map_eq_some_iff.mp hsettled
      exact Or.inr (Or.inl ⟨k, ending, task, status, result, rfl, rfl, htask, hresult, rfl, rfl⟩)
    · cases hsettled
  | cancel k =>
    obtain ⟨d, hd, heq⟩ := Option.map_eq_some_iff.mp h
    cases heq
    exact Or.inr (Or.inr ⟨k, d, rfl, rfl, hd, rfl, rfl⟩)

theorem run_cons {w w' : World σ τ ν} {event : Event κ ω} {events : List (Event κ ω)}
    {replies : List ρ} (h : m.run w (event :: events) = some (replies, w')) :
    ∃ reply after rest, m.step w event = some (reply, after) ∧
      m.run after events = some (rest, w') ∧ replies = reply.toList ++ rest := by
  simp only [Machine.run, Option.bind_eq_bind, Option.bind_eq_some_iff, Option.pure_def,
    Option.some.injEq, Prod.mk.injEq] at h
  obtain ⟨⟨reply, after⟩, hstep, ⟨rest, w₁⟩, hrun, hreplies, rfl⟩ := h
  exact ⟨reply, after, rest, hstep, hrun, hreplies.symm⟩

/-- A run may be cut at any event. -/
theorem run_append (m : Machine σ κ ρ τ ω ν) (w : World σ τ ν) (before after : List (Event κ ω)) :
    m.run w (before ++ after) = (m.run w before).bind fun (replies, w) =>
      (m.run w after).map fun (rest, w) => (replies ++ rest, w) := by
  induction before generalizing w with
  | nil => simp [Machine.run]
  | cons event before ih =>
    rw [List.cons_append, Machine.run, Machine.run]
    cases m.step w event with
    | none => rfl
    | some stepped =>
      obtain ⟨reply, w⟩ := stepped
      simp only [ih, Option.bind_eq_bind, Option.bind_some]
      cases m.run w before with
      | none => rfl
      | some ran =>
        obtain ⟨replies, w⟩ := ran
        cases h : m.run w after <;> simp [h]

end Steps

section Runs

variable {m : Machine σ κ ρ τ ω ν} {w w' : World σ τ ν} {events : List (Event κ ω)}
  {replies : List ρ}

/-- What a run keeps: the state and the tasks left. -/
theorem run_invariant (P : σ → Prop) (Q : τ → Prop)
    (hcall : ∀ s c reply s' task, P s → m.call s c = some (reply, s', task) →
      P s' ∧ ∀ t ∈ task, Q t)
    (h : m.run w events = some (replies, w')) (hw : P w.state ∧ ∀ d ∈ w.deferred, Q d.task) :
    P w'.state ∧ ∀ d ∈ w'.deferred, Q d.task := by
  induction events generalizing w replies with
  | nil =>
    cases h
    exact hw
  | cons event events ih =>
    obtain ⟨reply, after, rest, hstep, hrun, -⟩ := run_cons h
    refine ih hrun ?_
    rcases step_cases hstep with ⟨c, r, task, -, -, hdone, hdeferred⟩ |
      ⟨k, ending, task, status, result, -, -, htask, -, hstate, hdeferred⟩ |
      ⟨k, d, -, -, hd, hstate, hdeferred⟩
    · obtain ⟨hstate, htask⟩ := hcall _ _ _ _ _ hw.1 hdone
      refine ⟨hstate, fun d hd => ?_⟩
      rw [hdeferred, List.mem_append, List.mem_map] at hd
      rcases hd with hd | ⟨t, ht, rfl⟩
      · exact hw.2 d hd
      · exact htask t (Option.mem_toList.mp ht)
    · refine ⟨hstate ▸ hw.1, fun d hd => ?_⟩
      rw [hdeferred] at hd
      rcases List.mem_or_eq_of_mem_set hd with hd | rfl
      · exact hw.2 d hd
      · exact hw.2 ⟨task, false, status⟩ (List.mem_of_getElem? htask)
    · refine ⟨hstate ▸ hw.1, fun d' hd' => ?_⟩
      rw [hdeferred] at hd'
      rcases List.mem_or_eq_of_mem_set hd' with hd' | rfl
      · exact hw.2 d' hd'
      · exact hw.2 d (List.mem_of_getElem? hd)

/-- Workers and cancellations leave no trace in the replies and in the state. -/
theorem run_calls (h : m.run w events = some (replies, w')) :
    m.runCalls w.state (calls events) = some (replies, w'.state) := by
  induction events generalizing w replies with
  | nil =>
    cases h
    rfl
  | cons event events ih =>
    obtain ⟨reply, after, rest, hstep, hrun, rfl⟩ := run_cons h
    have hrest := ih hrun
    rcases step_cases hstep with ⟨c, r, task, rfl, rfl, hdone, -⟩ |
      ⟨k, ending, task, status, result, rfl, rfl, -, -, hstate, -⟩ |
      ⟨k, d, rfl, rfl, -, hstate, -⟩
    · change m.runCalls w.state (c :: calls events) = _
      simp only [Machine.runCalls, hdone, Option.bind_eq_bind, Option.bind_some, hrest]
      rfl
    · rwa [hstate] at hrest
    · rwa [hstate] at hrest

/-- What one more call keeps between the calls made and the state, the calls of a run keep. -/
theorem runCalls_history {H : List κ → σ → Prop}
    (hcall : ∀ past s c reply s' task, H past s → m.call s c = some (reply, s', task) →
      H (past ++ [c]) s')
    {later : List κ} {s s' : σ} (h : m.runCalls s later = some (replies, s')) {past : List κ}
    (hs : H past s) : H (past ++ later) s' := by
  induction later generalizing s replies past with
  | nil =>
    cases h
    rwa [List.append_nil]
  | cons c later ih =>
    simp only [Machine.runCalls, Option.bind_eq_bind, Option.bind_eq_some_iff, Option.pure_def,
      Option.some.injEq, Prod.mk.injEq] at h
    obtain ⟨⟨reply, s₁, task⟩, hmade, ⟨rest, s₂⟩, hrest, -, rfl⟩ := h
    have hlater := ih hrest (hcall past s c reply s₁ task hs hmade)
    rwa [List.append_assoc] at hlater

/-- A task stays in its place, and its future where it was decided. -/
theorem run_keeps (h : m.run w events = some (replies, w')) {k : Nat} {d : Deferred τ ν}
    (hd : w.deferred[k]? = some d) :
    ∃ d', w'.deferred[k]? = some d' ∧ d'.task = d.task ∧
      (d.status ≠ .pending → d'.status = d.status) := by
  induction events generalizing w replies d with
  | nil =>
    cases h
    exact ⟨d, hd, rfl, fun _ => rfl⟩
  | cons event events ih =>
    obtain ⟨reply, after, rest, hstep, hrun, -⟩ := run_cons h
    have hlt := (List.getElem?_eq_some_iff.mp hd).1
    suffices hafter : ∃ d₁, after.deferred[k]? = some d₁ ∧ d₁.task = d.task ∧
        (d.status ≠ .pending → d₁.status = d.status) by
      obtain ⟨d₁, hd₁, htask₁, hstatus₁⟩ := hafter
      obtain ⟨d', hd', htask', hstatus'⟩ := ih hrun hd₁
      refine ⟨d', hd', htask'.trans htask₁, fun hdecided => ?_⟩
      rw [hstatus' (hstatus₁ hdecided ▸ hdecided), hstatus₁ hdecided]
    rcases step_cases hstep with ⟨c, r, task, -, -, -, hdeferred⟩ |
      ⟨j, ending, task, status, result, -, -, htask, -, -, hdeferred⟩ |
      ⟨j, d₀, -, -, hd₀, -, hdeferred⟩
    · refine ⟨d, ?_, rfl, fun _ => rfl⟩
      rw [hdeferred, List.getElem?_append_left hlt, hd]
    · by_cases hjk : j = k
      · subst hjk
        obtain rfl := Option.some.inj (hd.symm.trans htask)
        refine ⟨⟨task, true, status.deliver result⟩, ?_, rfl, fun hdecided => ?_⟩
        · rw [hdeferred, List.getElem?_set_self hlt]
        cases status with
        | pending => exact absurd rfl hdecided
        | cancelled => rfl
        | done result' => rfl
      · exact ⟨d, by rw [hdeferred, List.getElem?_set_ne hjk, hd], rfl, fun _ => rfl⟩
    · by_cases hjk : j = k
      · subst hjk
        obtain rfl := Option.some.inj (hd.symm.trans hd₀)
        refine ⟨{ d with status := d.status.cancel }, ?_, rfl, fun hdecided => ?_⟩
        · rw [hdeferred, List.getElem?_set_self hlt]
        obtain ⟨task, ended, status⟩ := d
        cases status with
        | pending => exact absurd rfl hdecided
        | cancelled => rfl
        | done result' => rfl
      · exact ⟨d, by rw [hdeferred, List.getElem?_set_ne hjk, hd], rfl, fun _ => rfl⟩

end Runs

section Fates

variable {m : Machine σ κ ρ τ ω ν} {w w' : World σ τ ν} {events : List (Event κ ω)}
  {replies : List ρ} {k : Nat}

/-- An event that does not bear on a future has no part in its fate. -/
theorem Fate.cons {task : τ} {status : Status ν} (h : Fate m task k events status)
    {event : Event κ ω} (hcancel : event ≠ .cancel k)
    (hsettle : ∀ ending, event ≠ .settle k ending) :
    Fate m task k (event :: events) status := by
  cases status with
  | pending =>
    obtain ⟨hnone, hnone'⟩ := h
    refine ⟨?_, fun ending => ?_⟩
    · simp [hcancel.symm, hnone]
    · simp [(hsettle ending).symm, hnone' ending]
  | cancelled =>
    obtain ⟨before, after, rfl, hbefore⟩ := h
    refine ⟨event :: before, after, rfl, fun ending => ?_⟩
    simp [(hsettle ending).symm, hbefore ending]
  | done result =>
    obtain ⟨before, ending, after, rfl, hbefore, hfinish⟩ := h
    refine ⟨event :: before, ending, after, rfl, ?_, hfinish⟩
    simp [hcancel.symm, hbefore]

/-- In a run that starts before its task is left, or before its future is decided, the first
event that bears on the future decides it. -/
theorem run_fate (h : m.run w events = some (replies, w'))
    (hk : ∀ d, w.deferred[k]? = some d → d.status = .pending) {d' : Deferred τ ν}
    (hd' : w'.deferred[k]? = some d') : Fate m d'.task k events d'.status := by
  induction events generalizing w replies with
  | nil =>
    cases h
    rw [hk d' hd']
    exact ⟨List.not_mem_nil, fun _ => List.not_mem_nil⟩
  | cons event events ih =>
    obtain ⟨reply, after, rest, hstep, hrun, -⟩ := run_cons h
    rcases step_cases hstep with ⟨c, r, task, rfl, -, -, hdeferred⟩ |
      ⟨j, ending, task, status, result, rfl, -, htask, hfinish, -, hdeferred⟩ |
      ⟨j, d, rfl, -, hd, -, hdeferred⟩
    · refine (ih hrun fun d hd => ?_).cons (by simp) (by simp)
      rw [hdeferred, List.getElem?_append] at hd
      split at hd
      · exact hk d hd
      · obtain ⟨t, -, rfl⟩ := List.mem_map.mp (List.mem_of_getElem? hd)
        rfl
    · by_cases hjk : j = k
      · subst hjk
        obtain rfl : status = .pending := hk _ htask
        have hlt := (List.getElem?_eq_some_iff.mp htask).1
        obtain ⟨d₁, hd₁, htask₁, hstatus₁⟩ := run_keeps hrun
          (d := ⟨task, true, .done result⟩) (by rw [hdeferred, List.getElem?_set_self hlt]; rfl)
        obtain rfl := Option.some.inj (hd'.symm.trans hd₁)
        rw [htask₁, hstatus₁ (by simp)]
        exact ⟨[], ending, events, rfl, List.not_mem_nil, hfinish⟩
      · refine (ih hrun fun d hd => ?_).cons (by simp) (by simpa using hjk)
        rw [hdeferred, List.getElem?_set_ne hjk] at hd
        exact hk d hd
    · by_cases hjk : j = k
      · subst hjk
        have hlt := (List.getElem?_eq_some_iff.mp hd).1
        have hcancelled : d.status.cancel = .cancelled := by rw [hk d hd]; rfl
        obtain ⟨d₁, hd₁, -, hstatus₁⟩ := run_keeps hrun
          (d := { d with status := .cancelled })
          (by rw [hdeferred, List.getElem?_set_self hlt, hcancelled])
        obtain rfl := Option.some.inj (hd'.symm.trans hd₁)
        rw [hstatus₁ (by simp)]
        exact ⟨[], events, rfl, fun _ => List.not_mem_nil⟩
      · refine (ih hrun fun d' hd' => ?_).cons (by simpa using hjk) (by simp)
        rw [hdeferred, List.getElem?_set_ne hjk] at hd'
        exact hk d' hd'

end Fates

end DeferredCalls
