import Mathlib.Logic.Function.Basic
import SyntheticsOperator.Support.Machines

/-!
# Starting workers

A function starts one goroutine for each worker and waits in two selects, first for one
worker to be ready, then for the end of any of them.  A worker sends its result on a
channel with room for it.  `live_iff` says when a failed worker can leave the function
waiting for ever.
-/

namespace SyntheticsOperator.Support.Startup

/-- A worker that has ended has sent its result; `none` is a nil error. -/
inductive Worker (E : Type*) where
  | starting
  | ready
  | ended (err : Option E)
deriving DecidableEq

/-- Where the function is. -/
inductive Phase (E : Type*) where
  | first
  | second
  | returned (err : Option E)
deriving DecidableEq

/-- The worker whose readiness the first select waits for, and the workers whose results
each select listens for. -/
structure Selects (S : Type*) where
  awaited : S
  first : List S
  second : List S

structure State (S E : Type*) where
  workers : S → Worker E
  /-- the result that is in the channel of a worker -/
  results : S → Option (Option E)
  /-- the channel that the awaited worker closes -/
  ready : Bool
  cancelled : Bool
  /-- what follows the readiness has been asked for -/
  requested : Bool
  phase : Phase E

/-- The cases of a select. -/
inductive Case (S : Type*) where
  | ready
  | done
  | result (s : S)
deriving DecidableEq

inductive Event (S E : Type*) where
  | ready (s : S)
  | fail (s : S) (err : E)
  /-- a ready worker sees the cancellation -/
  | finish (s : S)
  | cancel
  | select (c : Case S)
deriving DecidableEq

variable {S E : Type*} [DecidableEq S]

def init : State S E where
  workers _ := .starting
  results _ := none
  ready := false
  cancelled := false
  requested := false
  phase := .first

variable (sel : Selects S)

/-- The workers whose results the function listens for. -/
def Selects.listens : Phase E → List S
  | .first => sel.first
  | .second => sel.second
  | .returned _ => []

/-- The function takes a case of the select that it waits in, if that case is enabled. -/
def take (st : State S E) : Case S → Option (State S E)
  | .ready =>
      match st.phase, st.ready with
      | .first, true => some { st with phase := .second, requested := true }
      | _, _ => none
  | .done =>
      match st.phase, st.cancelled with
      | .first, true => some { st with phase := .returned none }
      | .second, true => some { st with phase := .returned none }
      | _, _ => none
  | .result s =>
      if s ∈ sel.listens st.phase then
        (st.results s).map fun err =>
          { st with phase := .returned err, results := Function.update st.results s none }
      else none

/-- The worker signals that it is ready. -/
def State.signal (st : State S E) (s : S) : State S E :=
  { st with
    workers := Function.update st.workers s .ready
    ready := st.ready || decide (s = sel.awaited) }

/-- The worker ends and sends its result. -/
def State.send (st : State S E) (s : S) (err : Option E) : State S E :=
  { st with
    workers := Function.update st.workers s (.ended err)
    results := Function.update st.results s (some err) }

def step (st : State S E) : Event S E → Option (State S E)
  | .ready s =>
      match st.workers s with
      | .starting => some (st.signal sel s)
      | _ => none
  | .fail s err =>
      match st.workers s with
      | .ended _ => none
      | _ => some (st.send s (some err))
  | .finish s =>
      match st.workers s, st.cancelled with
      | .ready, true => some (st.send s none)
      | _, _ => none
  | .cancel => some { st with cancelled := true }
  | .select c => take sel st c

/-- The states after a history of events. -/
def Reaches (history : List (Event S E)) (st : State S E) : Prop :=
  Machine.run (step sel) init history = some st

/-- No worker can do anything until the cancellation, and there is none. -/
structure Quiescent (st : State S E) : Prop where
  running : st.cancelled = false
  settled : ∀ s, st.workers s = .ready ∨ ∃ err, st.workers s = .ended (some err)

/-- The function has returned an error, or a case of its select is enabled. -/
def Live (st : State S E) : Prop :=
  (∃ err, st.phase = .returned (some err)) ∨ ∃ c, (take sel st c).isSome

/-! ## What a step does -/

variable {sel} {history : List (Event S E)} {st st' : State S E}

theorem take_ready_eq_some (h : take sel st .ready = some st') :
    (st.phase = .first ∧ st.ready = true) ∧
      st' = { st with phase := .second, requested := true } := by
  simp only [take] at h
  split at h
  · rename_i hphase hready
    exact ⟨⟨hphase, hready⟩, (Option.some.inj h).symm⟩
  · cases h

theorem take_done_eq_some (h : take sel st .done = some st') :
    st.cancelled = true ∧ st' = { st with phase := .returned none } := by
  simp only [take] at h
  split at h
  · rename_i hcancelled
    exact ⟨hcancelled, (Option.some.inj h).symm⟩
  · rename_i hcancelled
    exact ⟨hcancelled, (Option.some.inj h).symm⟩
  · cases h

theorem take_result_eq_some {s : S} (h : take sel st (.result s) = some st') :
    s ∈ sel.listens st.phase ∧ ∃ err, st.results s = some err ∧
      st' = { st with phase := .returned err, results := Function.update st.results s none } := by
  simp only [take, Option.ite_none_right_eq_some, Option.map_eq_some_iff] at h
  obtain ⟨hlistens, err, hresult, heq⟩ := h
  exact ⟨hlistens, err, hresult, heq.symm⟩

theorem signal_workers (st : State S E) (s s' : S) :
    (st.signal sel s).workers s' = if s' = s then .ready else st.workers s' :=
  Function.update_apply ..

theorem send_workers (st : State S E) (s s' : S) (err : Option E) :
    (st.send s err).workers s' = if s' = s then .ended err else st.workers s' :=
  Function.update_apply ..

theorem send_results (st : State S E) (s s' : S) (err : Option E) :
    (st.send s err).results s' = if s' = s then some err else st.results s' :=
  Function.update_apply ..

theorem take_workers {c : Case S} (h : take sel st c = some st') :
    st'.workers = st.workers ∧ st'.ready = st.ready := by
  cases c with
  | ready => exact (take_ready_eq_some h).2 ▸ ⟨rfl, rfl⟩
  | done => exact (take_done_eq_some h).2 ▸ ⟨rfl, rfl⟩
  | result s =>
      obtain ⟨_, err, _, rfl⟩ := take_result_eq_some h
      exact ⟨rfl, rfl⟩

/-- What a step does to the workers. -/
theorem step_cases {e : Event S E} (h : step sel st e = some st') :
    (∃ s, e = .ready s ∧ st.workers s = .starting ∧ st' = st.signal sel s) ∨
      (∃ s err, st' = st.send s err) ∨
      st'.workers = st.workers ∧ st'.ready = st.ready := by
  cases e with
  | ready s =>
      cases hworker : st.workers s <;> simp only [step, hworker, reduceCtorEq] at h
      exact .inl ⟨s, rfl, hworker, (Option.some.inj h).symm⟩
  | fail s err =>
      cases hworker : st.workers s <;> simp only [step, hworker, reduceCtorEq] at h
      all_goals exact .inr (.inl ⟨s, some err, (Option.some.inj h).symm⟩)
  | finish s =>
      cases hworker : st.workers s <;> cases hcancelled : st.cancelled <;>
        simp only [step, hworker, hcancelled, reduceCtorEq] at h
      exact .inr (.inl ⟨s, none, (Option.some.inj h).symm⟩)
  | cancel => exact .inr (.inr ((Option.some.inj h) ▸ ⟨rfl, rfl⟩))
  | select c => exact .inr (.inr (take_workers h))

/-- A worker becomes ready only from its start, and never goes back there. -/
theorem step_worker {e : Event S E} (h : step sel st e = some st') {s : S}
    (hstarted : st.workers s ≠ .starting) :
    st'.workers s ≠ .starting ∧ (st'.workers s = .ready → st.workers s = .ready) := by
  obtain ⟨s', _, hstarting, rfl⟩ | ⟨s', err, rfl⟩ | ⟨hworkers, _⟩ := step_cases h
  · have hne : s ≠ s' := fun heq => hstarted (heq ▸ hstarting)
    rw [signal_workers, if_neg hne]
    exact ⟨hstarted, id⟩
  · rw [send_workers]
    split
    · exact ⟨by simp, by simp⟩
    · exact ⟨hstarted, id⟩
  · rw [hworkers]
    exact ⟨hstarted, id⟩

/-- The channel is closed by the awaited worker, which has then left its start. -/
theorem step_awaited {e : Event S E} (h : step sel st e = some st')
    (hready : st.ready = true → st.workers sel.awaited ≠ .starting) (hready' : st'.ready = true) :
    st'.workers sel.awaited ≠ .starting := by
  obtain ⟨s, _, _, rfl⟩ | ⟨s, err, rfl⟩ | ⟨hworkers, hsame⟩ := step_cases h
  · rw [signal_workers]
    split
    · simp
    · rename_i hne
      apply hready
      simpa [State.signal, Ne.symm hne] using hready'
  · rw [send_workers]
    split
    · simp
    · exact hready hready'
  · rw [hworkers]
    exact hready (hsame ▸ hready')

/-! ## What holds in every state -/

variable (sel) in
structure Invariant (history : List (Event S E)) (st : State S E) : Prop where
  ready_iff : st.ready = true ↔ .ready sel.awaited ∈ history
  second_ready : st.phase = .second → st.ready = true
  requested_ready : st.requested = true → st.ready = true
  returned_nil : st.phase = .returned none → st.cancelled = true
  returned_error : ∀ err, st.phase = .returned (some err) →
    st.ready = true ∨ ∃ s ∈ sel.first, st.workers s = .ended (some err)
  ended_nil : ∀ s, st.workers s = .ended none → st.cancelled = true
  received : ∀ s err, st.results s = some err → st.workers s = .ended err
  sent : (∀ err, st.phase ≠ .returned err) →
    ∀ s err, st.workers s = .ended err → st.results s = some err

theorem Invariant.take {c : Case S} (h : Invariant sel history st)
    (htake : take sel st c = some st') : Invariant sel (history ++ [.select c]) st' := by
  have hready : st.ready = true ↔ .ready sel.awaited ∈ history ++ [.select c] := by
    simpa using h.ready_iff
  cases c with
  | ready =>
      obtain ⟨⟨hphase, hclosed⟩, rfl⟩ := take_ready_eq_some htake
      have hwaits : ∀ err, st.phase ≠ .returned err := by simp [hphase]
      exact ⟨hready, fun _ => hclosed, fun _ => hclosed, by simp, by simp, h.ended_nil,
        h.received, fun _ => h.sent hwaits⟩
  | done =>
      obtain ⟨hcancelled, rfl⟩ := take_done_eq_some htake
      exact ⟨hready, by simp, h.requested_ready, fun _ => hcancelled, by simp, h.ended_nil,
        h.received, fun hwaits => absurd rfl (hwaits none)⟩
  | result s =>
      obtain ⟨hlistens, err, hresult, rfl⟩ := take_result_eq_some htake
      have hended : st.workers s = .ended err := h.received s err hresult
      refine ⟨hready, by simp, h.requested_ready, ?_, ?_, h.ended_nil, ?_,
        fun hwaits => absurd rfl (hwaits err)⟩
      · -- a nil result is sent only after the cancellation
        intro hnil
        apply h.ended_nil s
        rw [hended]
        exact congrArg Worker.ended (Phase.returned.inj hnil)
      · intro e he
        have heq : err = some e := Phase.returned.inj he
        cases hphase : st.phase with
        | first =>
            rw [hphase] at hlistens
            exact .inr ⟨s, hlistens, heq ▸ hended⟩
        | second => exact .inl (h.second_ready hphase)
        | returned =>
            rw [hphase] at hlistens
            cases hlistens
      · intro s' err' hs'
        apply h.received s' err'
        rw [← hs']
        by_cases hs : s' = s
        · simp [hs] at hs'
        · exact (Function.update_of_ne hs ..).symm

theorem Invariant.send {s : S} {err : Option E} {e : Event S E} (h : Invariant sel history st)
    (hevent : e ≠ .ready sel.awaited) (hlive : ∀ err, st.workers s ≠ .ended err)
    (hnil : err = none → st.cancelled = true) :
    Invariant sel (history ++ [e]) (st.send s err) where
  ready_iff := by
    simpa [State.send, hevent.symm] using h.ready_iff
  second_ready := h.second_ready
  requested_ready := h.requested_ready
  returned_nil := h.returned_nil
  returned_error err' hphase := by
    rcases h.returned_error err' hphase with hclosed | ⟨s', hs', hended⟩
    · exact .inl hclosed
    · have hne : s' ≠ s := fun heq => hlive _ (heq ▸ hended)
      exact .inr ⟨s', hs', by rw [send_workers, if_neg hne, hended]⟩
  ended_nil s' hs' := by
    rw [send_workers] at hs'
    split at hs'
    · exact hnil (Worker.ended.inj hs')
    · exact h.ended_nil s' hs'
  received s' err' hs' := by
    rw [send_results] at hs'
    rw [send_workers]
    split at hs'
    · rw [if_pos (by assumption), Option.some.inj hs']
    · rw [if_neg (by assumption), h.received s' err' hs']
  sent hwaits s' err' hs' := by
    rw [send_workers] at hs'
    rw [send_results]
    split at hs'
    · rw [if_pos (by assumption), Worker.ended.inj hs']
    · rw [if_neg (by assumption), h.sent hwaits s' err' hs']

theorem Invariant.signal {s : S} (h : Invariant sel history st)
    (hstarting : st.workers s = .starting) :
    Invariant sel (history ++ [.ready s]) (st.signal sel s) := by
  -- a worker that has ended is another one
  have hother : ∀ s' err, st.workers s' = .ended err →
      (st.signal sel s).workers s' = .ended err := by
    intro s' err hended
    have hne : s' ≠ s := by
      intro heq
      rw [heq, hstarting] at hended
      cases hended
    rw [signal_workers, if_neg hne, hended]
  have hback : ∀ s' err, (st.signal sel s).workers s' = .ended err →
      st.workers s' = .ended err := by
    intro s' err hended
    rw [signal_workers] at hended
    split at hended
    · cases hended
    · exact hended
  have hready : st.ready = true → (st.signal sel s).ready = true := by
    intro hclosed
    simp [State.signal, hclosed]
  refine ⟨?_, fun hphase => hready (h.second_ready hphase),
    fun hrequested => hready (h.requested_ready hrequested), h.returned_nil, ?_,
    fun s' hs' => h.ended_nil s' (hback s' none hs'),
    fun s' err hs' => hother s' err (h.received s' err hs'),
    fun hwaits s' err hs' => h.sent hwaits s' err (hback s' err hs')⟩
  · have heq : s = sel.awaited ↔ sel.awaited = s := eq_comm
    simp [State.signal, h.ready_iff, heq]
  · intro err hphase
    rcases h.returned_error err hphase with hclosed | ⟨s', hs', hended⟩
    · exact .inl (hready hclosed)
    · exact .inr ⟨s', hs', hother s' _ hended⟩

theorem Invariant.step {e : Event S E} (h : Invariant sel history st)
    (hstep : step sel st e = some st') : Invariant sel (history ++ [e]) st' := by
  cases e with
  | ready s =>
      cases hworker : st.workers s with
      | starting =>
          simp only [Startup.step, hworker, Option.some.injEq] at hstep
          exact hstep ▸ h.signal hworker
      | ready => simp [Startup.step, hworker] at hstep
      | ended => simp [Startup.step, hworker] at hstep
  | fail s err =>
      have hsend : (∀ err, st.workers s ≠ .ended err) ∧ st' = st.send s (some err) := by
        cases hworker : st.workers s <;> simp_all [Startup.step]
      rw [hsend.2]
      exact h.send (by simp) hsend.1 (by simp)
  | finish s =>
      have hsend : (st.workers s = .ready ∧ st.cancelled = true) ∧ st' = st.send s none := by
        cases hworker : st.workers s <;> cases hcancelled : st.cancelled <;>
          simp_all [Startup.step]
      rw [hsend.2]
      exact h.send (by simp) (by simp [hsend.1.1]) (fun _ => hsend.1.2)
  | cancel =>
      simp only [Startup.step, Option.some.injEq] at hstep
      subst hstep
      exact ⟨by simpa using h.ready_iff, h.second_ready, h.requested_ready, fun _ => rfl,
        h.returned_error, fun _ _ => rfl, h.received, h.sent⟩
  | select c => exact h.take hstep

theorem Reaches.invariant (h : Reaches sel history st) : Invariant sel history st := by
  refine Machine.run_invariant ?_ (fun _ _ _ _ hinv hstep => hinv.step hstep) h
  exact ⟨by simp [init], by simp [init], by simp [init], by simp [init], by simp [init],
    by simp [init], by simp [init], by simp [init]⟩

/-- What follows the readiness is asked for only when the awaited worker has been ready. -/
theorem Reaches.requested (h : Reaches sel history st) (hrequested : st.requested = true) :
    .ready sel.awaited ∈ history :=
  h.invariant.ready_iff.mp (h.invariant.requested_ready hrequested)

/-- With a failed worker and nothing left to happen, the function is not stuck exactly when
the awaited worker was ready at some time or the first select listens for a worker that
failed. -/
theorem Reaches.live_iff (h : Reaches sel history st) (hall : ∀ s, s ∈ sel.second)
    (hquiet : Quiescent st) (hfailed : ∃ s err, st.workers s = .ended (some err)) :
    Live sel st ↔ .ready sel.awaited ∈ history ∨
      ∃ s ∈ sel.first, ∃ err, st.workers s = .ended (some err) := by
  have hinv := h.invariant
  rw [← hinv.ready_iff]
  constructor
  · intro hlive
    rcases hlive with ⟨err, hphase⟩ | ⟨c, hc⟩
    · rcases hinv.returned_error err hphase with hready | ⟨s, hs, hended⟩
      · exact .inl hready
      · exact .inr ⟨s, hs, err, hended⟩
    · obtain ⟨st', htake⟩ := Option.isSome_iff_exists.mp hc
      cases c with
      | ready => exact .inl (take_ready_eq_some htake).1.2
      | done => exact absurd (take_done_eq_some htake).1 (by simp [hquiet.running])
      | result s =>
          obtain ⟨hlistens, err, hresult, _⟩ := take_result_eq_some htake
          cases hphase : st.phase with
          | first =>
              rw [hphase] at hlistens
              have hended := hinv.received s err hresult
              cases err with
              | none => exact absurd (hinv.ended_nil s hended) (by simp [hquiet.running])
              | some err => exact .inr ⟨s, hlistens, err, hended⟩
          | second => exact .inl (hinv.second_ready hphase)
          | returned =>
              rw [hphase] at hlistens
              cases hlistens
  · intro hcause
    -- a result that was sent is still in its channel
    have hresult : (∀ err, st.phase ≠ .returned err) → ∀ s ∈ sel.listens st.phase, ∀ err,
        st.workers s = .ended (some err) → Live sel st := by
      intro hwaits s hs err hended
      refine .inr ⟨.result s, ?_⟩
      simp [take, hs, hinv.sent hwaits s _ hended]
    cases hphase : st.phase with
    | first =>
        rcases hcause with hready | ⟨s, hs, err, hended⟩
        · exact .inr ⟨.ready, by simp [take, hphase, hready]⟩
        · exact hresult (by simp [hphase]) s (by rw [hphase]; exact hs) err hended
    | second =>
        obtain ⟨s, err, hended⟩ := hfailed
        exact hresult (by simp [hphase]) s (by rw [hphase]; exact hall s) err hended
    | returned err =>
        cases err with
        | none => exact absurd (hinv.returned_nil hphase) (by simp [hquiet.running])
        | some err => exact .inl ⟨err, hphase⟩

end SyntheticsOperator.Support.Startup
