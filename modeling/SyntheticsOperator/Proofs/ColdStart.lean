import SyntheticsOperator.NatsBus.ColdStart

/-!
# Every request is answered

A component asks after its subscription is ready, and the resyncer broadcasts after it
listens.  So whatever the order in which they start, a request is followed by a broadcast
that begins when the component has its subscription:

* a request that the handler sees stays in its channel until a broadcast begins;
* a request that is dropped because the resyncer does not listen yet is followed by its
  first broadcast.

What is left is a resyncer whose own subscription failed or whose connection broke.
-/

namespace SyntheticsOperator.Proofs.ColdStart

open SyntheticsOperator.Controllers
open SyntheticsOperator.Controllers.Resyncer (Loop)
open SyntheticsOperator.NatsBus.ColdStart
open SyntheticsOperator.Support
open SyntheticsOperator.Support.Startup (Selects)

/-! ## The loop -/

section Loop

variable {l l' : Loop} {e : Resyncer.Event}

/-- Everything that one step of the loop can do. -/
inductive Transition (l : Loop) : Resyncer.Event → Loop → Prop where
  | subscribed (h : l.subscription = .starting) :
      Transition l .subscribed { l with subscription := .flushing, queued := true }
  | subscribeFails (err : String) (h : l.subscription = .starting) :
      Transition l (.subscribeFails err) (l.send (some err))
  | flushed (h : l.subscription = .flushing) (hlistening : l.listening = true) :
      Transition l .flushed { l with subscription := .ready, ready := true }
  | flushFails (err : String) (h : l.subscription = .flushing) :
      Transition l (.flushFails err) (l.send (some err))
  | unsubscribed (h : l.subscription = .ready) (hcancelled : l.cancelled = true) :
      Transition l .unsubscribed { l.send none with queued := false, listening := false }
  | registered (h : l.queued = true) (hlistening : l.listening = false) :
      Transition l .registered { l with listening := true }
  | disconnected (h : l.listening = true) :
      Transition l .disconnected { l with listening := false }
  | tick : Transition l .tick { l with ticked := true }
  | cancel : Transition l .cancel { l with cancelled := true }
  | ready (h : l.phase = .waiting) (hready : l.ready = true) :
      Transition l (.select .ready) { l with phase := .resyncing }
  | failed (err : Option String) (h : l.phase = .waiting) (herr : l.requestErr = some err) :
      Transition l (.select .requestErr) { l with phase := .resyncing, requestErr := none }
  | ended (err : Option String) (h : l.phase = .idle) (herr : l.requestErr = some err) :
      Transition l (.select .requestErr) { l with requestErr := none }
  | done (h : l.phase = .waiting ∨ l.phase = .idle) (hcancelled : l.cancelled = true) :
      Transition l (.select .done) { l with phase := .returned }
  | ticked (h : l.phase = .idle) (hticked : l.ticked = true) :
      Transition l (.select .tick) { l with phase := .resyncing, ticked := false }
  | requested (h : l.phase = .idle) (hrequested : l.requested = true) :
      Transition l (.select .requested) { l with phase := .resyncing, requested := false }
  | resynced (h : l.phase = .resyncing) : Transition l .resynced { l with phase := .idle }

theorem take_transition {c : Resyncer.Case} (h : l.take c = some l') :
    Transition l (.select c) l' := by
  cases c with
  | requestErr =>
      simp only [Loop.take] at h
      split at h
      · cases h
        exact .failed _ ‹_› ‹_›
      · cases h
        exact .ended _ ‹_› ‹_›
      · cases h
  | ready | done | tick | requested =>
      simp only [Loop.take, Option.ite_none_right_eq_some, Option.some.injEq] at h
      obtain ⟨⟨hphase, hguard⟩, rfl⟩ := h
      constructor <;> assumption

theorem step_transition (h : l.step e = some l') : Transition l e l' := by
  cases e with
  | select c => exact take_transition h
  | tick | cancel =>
      cases h
      constructor
  | flushed | unsubscribed | registered =>
      simp only [Loop.step, Option.ite_none_right_eq_some, Option.some.injEq] at h
      obtain ⟨⟨hfirst, hsecond⟩, rfl⟩ := h
      constructor <;> assumption
  | subscribed | subscribeFails | flushFails | disconnected | resynced =>
      simp only [Loop.step, Option.ite_none_right_eq_some, Option.some.injEq] at h
      obtain ⟨hguard, rfl⟩ := h
      constructor
      exact hguard

/-- A broadcast is still to begin, here or in the process that follows. -/
def Owes (l : Loop) : Prop := l.requested = true ∨ l.phase = .waiting ∨ l.cancelled = true

theorem Owes.step (h : Owes l) (hstep : l.step e = some l') :
    Owes l' ∨ l.phase ≠ .resyncing ∧ l'.phase = .resyncing := by
  cases step_transition hstep <;> simp_all [Owes, Loop.send]

theorem step_resyncing (hphase : l.phase = .resyncing) (hstep : l.step e = some l') :
    e = .resynced ∨ l'.phase = .resyncing := by
  cases step_transition hstep <;> simp_all [Loop.send]

theorem step_cancelled (hcancelled : l.cancelled = true) (hstep : l.step e = some l') :
    l'.cancelled = true := by
  cases step_transition hstep <;> simp_all [Loop.send]

/-- The first select sees how the goroutine ended, and only the context ends the loop. -/
structure Sound (l : Loop) : Prop where
  ready : l.subscription = .ready → l.ready = true
  ended : ∀ err, l.phase = .waiting → l.subscription = .ended err → l.requestErr = some err
  returned : l.phase = .returned → l.cancelled = true

theorem Sound.step (h : Sound l) (hstep : l.step e = some l') : Sound l' := by
  obtain ⟨hready, hended, hreturned⟩ := h
  cases step_transition hstep <;> constructor <;> simp_all [Loop.send]

/-- The steps that break the subscription to the requests. -/
def breaks : Resyncer.Event → Bool
  | .subscribeFails _ | .flushFails _ | .disconnected => true
  | _ => false

/-- Without such a step the resyncer listens from its first broadcast on. -/
structure Unbroken (l : Loop) : Prop where
  requestErr : l.requestErr = none ∨ l.cancelled = true
  ready : l.ready = true → l.listening = true ∨ l.cancelled = true
  listening : l.phase = .waiting ∨ l.listening = true ∨ l.cancelled = true

theorem Unbroken.step (h : Unbroken l) (hstep : l.step e = some l') (he : breaks e = false) :
    Unbroken l' := by
  obtain ⟨hrequestErr, hready, hlistening⟩ := h
  cases step_transition hstep <;> constructor <;> simp_all [Loop.send, breaks]

/-- The steps that come without anything new from outside. -/
def settles : Resyncer.Event → Bool
  | .tick | .cancel | .unsubscribed | .disconnected => false
  | _ => true

def subscriptionWeight : Resyncer.Subscription → Nat
  | .starting => 4
  | .flushing => 2
  | _ => 0

def phaseWeight : Resyncer.Phase → Nat
  | .waiting => 2
  | .resyncing => 1
  | _ => 0

/-- A bound on the number of such steps. -/
def remaining (l : Loop) : Nat :=
  subscriptionWeight l.subscription + phaseWeight l.phase + (if l.listening then 0 else 1) +
    (if l.requestErr = none then 0 else 1) + (if l.requested then 3 else 0) +
    (if l.ticked then 2 else 0)

theorem remaining_le (l : Loop) : remaining l ≤ 13 := by
  have hsub : subscriptionWeight l.subscription ≤ 4 := by
    cases l.subscription <;> simp [subscriptionWeight]
  have hphase : phaseWeight l.phase ≤ 2 := by
    cases l.phase <;> simp [phaseWeight]
  grind [remaining]

theorem remaining_step (hrunning : l.cancelled = false) (he : settles e = true)
    (hstep : l.step e = some l') : l'.cancelled = false ∧ remaining l' < remaining l := by
  cases step_transition hstep with
  | tick | cancel | unsubscribed | disconnected => cases he
  | done _ hcancelled => simp [hrunning] at hcancelled
  | _ =>
      simp_all [remaining, subscriptionWeight, phaseWeight, Loop.send]
      try split <;> omega

/-- A loop that is not idle, or has a request, can go on. -/
theorem exists_step (h : Sound l) (hrunning : l.cancelled = false)
    (hbusy : l.phase ≠ .idle ∨ l.requested = true) :
    ∃ e, settles e = true ∧ (l.step e).isSome = true := by
  cases hphase : l.phase with
  | waiting =>
      cases hsub : l.subscription with
      | starting => exact ⟨.subscribed, rfl, by simp [Loop.step, hsub]⟩
      | flushing => exact ⟨.flushFails "", rfl, by simp [Loop.step, hsub]⟩
      | ready =>
          exact ⟨.select .ready, rfl, by simp [Loop.step, Loop.take, hphase, h.ready hsub]⟩
      | ended err =>
          exact ⟨.select .requestErr, rfl,
            by simp [Loop.step, Loop.take, hphase, h.ended err hphase hsub]⟩
  | resyncing => exact ⟨.resynced, rfl, by simp [Loop.step, hphase]⟩
  | idle =>
      have hrequested : l.requested = true := hbusy.resolve_left (absurd hphase)
      exact ⟨.select .requested, rfl, by simp [Loop.step, Loop.take, hphase, hrequested]⟩
  | returned => simp [h.returned hphase] at hrunning

end Loop

/-! ## The system -/

section System

variable {I : Type} {S : I → Type} {sel : ∀ i, Selects (S i)} {st st' : State S} {e : Event S}

/-- A broadcast that the component will see from its beginning is still to end. -/
def Awaits (st : State S) (i : I) : Prop :=
  some i ∈ st.inFlight ∨ Owes st.resyncer ∨
    st.resyncer.phase = .resyncing ∧ st.audience i = true

variable (sel) in
structure Invariant (st : State S) : Prop where
  sound : Sound st.resyncer
  closed : ∀ i, (st.components i).ready = true →
    (st.components i).workers (sel i).awaited ≠ .starting
  asked : ∀ i, st.asked i = true → (st.components i).workers (sel i).awaited ≠ .starting
  served : ∀ i, st.asked i = true → st.joined sel i = true →
    st.caughtUp i = true ∨ st.missed i = true ∨ Awaits st i

variable (sel) in
theorem invariant_init : Invariant sel (State.init : State S) where
  sound := ⟨by simp [State.init, Loop.init], by simp [State.init, Loop.init],
    by simp [State.init, Loop.init]⟩
  closed := by simp [State.init, Startup.init]
  asked := by simp [State.init]
  served := by simp [State.init]

theorem mem_eraseIdx_or {α : Type} {l : List α} {n : Nat} {a b : α} (hn : l[n]? = some b)
    (ha : a ∈ l) : a ∈ l.eraseIdx n ∨ a = b := by
  obtain ⟨k, hk⟩ := List.mem_iff_getElem?.mp ha
  by_cases heq : k = n
  · rw [heq, hn] at hk
    exact .inr (Option.some.inj hk).symm
  · exact .inl (List.mem_eraseIdx_iff_getElem?.mpr ⟨k, heq, hk⟩)

/-- A step of the resyncer: a broadcast that is owed begins with the component in its
audience, and one that ends has reached its audience. -/
theorem Invariant.resyncer (h : Invariant sel st) {e : Resyncer.Event} {l : Loop}
    (hstep : st.resyncer.step e = some l) : Invariant sel (st.observe sel e l) where
  sound := h.sound.step hstep
  closed := h.closed
  asked := h.asked
  served i hasked hjoined := by
    have hjoined' : st.joined sel i = true := hjoined
    rcases h.served i hasked hjoined with hdone | hmissed | hflight | howes | ⟨hphase, haudience⟩
    · left
      simp only [State.observe]
      split <;> simp [hdone]
    · exact .inr (.inl hmissed)
    · exact .inr (.inr (.inl hflight))
    · rcases howes.step hstep with howes' | hbegins
      · exact .inr (.inr (.inr (.inl howes')))
      · refine .inr (.inr (.inr (.inr ⟨hbegins.2, ?_⟩)))
        simp only [State.observe]
        rw [if_pos hbegins, hjoined']
    · rcases step_resyncing hphase hstep with hend | hphase'
      · by_cases hcancelled : st.resyncer.cancelled = true
        · exact .inr (.inr (.inr (.inl (.inr (.inr (step_cancelled hcancelled hstep))))))
        · left
          simp [State.observe, hend, hcancelled, haudience, hjoined']
      · refine .inr (.inr (.inr (.inr ⟨hphase', ?_⟩)))
        simp [State.observe, hphase, haudience]

variable [DecidableEq I]

theorem Invariant.receive (h : Invariant sel st) {n : Nat} {sender : Option I}
    (hn : st.inFlight[n]? = some sender) :
    Invariant sel ({ st with inFlight := st.inFlight.eraseIdx n }.receive sender) := by
  have hmem : ∀ i, some i ∈ st.inFlight → some i ∈ st.inFlight.eraseIdx n ∨ some i = sender :=
    fun i hi => mem_eraseIdx_or hn hi
  unfold State.receive
  split
  · -- the request is in the channel, and with it all that was asked for before
    exact ⟨⟨h.sound.ready, h.sound.ended, h.sound.returned⟩, h.closed, h.asked,
      fun i _ _ => .inr (.inr (.inr (.inl (.inl rfl))))⟩
  · split
    · rename_i hfirst
      exact ⟨h.sound, h.closed, h.asked, fun i _ _ => .inr (.inr (.inr (.inl (.inr hfirst))))⟩
    · refine ⟨h.sound, h.closed, h.asked, fun i hasked hjoined => ?_⟩
      rcases h.served i hasked hjoined with hdone | hmissed | hflight | hrest
      · exact .inl hdone
      · exact .inr (.inl (by simp [hmissed]))
      · rcases hmem i hflight with hflight' | hsender
        · exact .inr (.inr (.inl hflight'))
        · exact .inr (.inl (by simp [hsender]))
      · exact .inr (.inr (.inr hrest))

variable [∀ i, DecidableEq (S i)]

/-- A step of one component: it does not come back to its start. -/
theorem Invariant.component (h : Invariant sel st) {i : I} {e : Startup.Event (S i) String}
    {component : Startup.State (S i) String}
    (hstep : Startup.step (sel i) (st.components i) e = some component) :
    Invariant sel { st with components := Function.update st.components i component } where
  sound := h.sound
  closed j := by
    by_cases hj : j = i
    · subst hj
      simpa using Startup.step_awaited hstep (h.closed j)
    · simpa [hj] using h.closed j
  asked j hasked := by
    by_cases hj : j = i
    · subst hj
      simpa using (Startup.step_worker hstep (h.asked j hasked)).1
    · simpa [hj] using h.asked j hasked
  served j hasked hjoined := by
    apply h.served j hasked
    by_cases hj : j = i
    · subst hj
      simp only [State.joined, Function.update_self, decide_eq_true_eq] at hjoined ⊢
      exact (Startup.step_worker hstep (h.asked j hasked)).2 hjoined
    · simpa [State.joined, hj] using hjoined

theorem Invariant.step (h : Invariant sel st) (hstep : st.step sel e = some st') :
    Invariant sel st' := by
  cases e with
  | resyncer e =>
      obtain ⟨l, hl, rfl⟩ := Option.map_eq_some_iff.mp hstep
      exact h.resyncer hl
  | restartResyncer =>
      cases hstep
      exact ⟨⟨by simp [Loop.init], by simp [Loop.init], by simp [Loop.init]⟩, h.closed, h.asked,
        fun i _ _ => .inr (.inr (.inr (.inl (.inr (.inl rfl)))))⟩
  | component i e =>
      simp only [State.step, Option.ite_none_left_eq_some] at hstep
      obtain ⟨component, hcomponent, rfl⟩ := Option.map_eq_some_iff.mp hstep.2
      exact h.component hcomponent
  | ask i sent =>
      obtain ⟨component, hcomponent, rfl⟩ := Option.map_eq_some_iff.mp hstep
      have htake : Startup.take (sel i) (st.components i) .ready = some component := hcomponent
      have hready := (Startup.take_ready_eq_some htake).1.2
      have hnext := h.component hcomponent
      refine ⟨hnext.sound, hnext.closed, fun j hasked => ?_, fun j hasked hjoined => ?_⟩
      · by_cases hj : j = i
        · subst hj
          simpa using (Startup.step_worker hcomponent (h.closed j hready)).1
        · exact hnext.asked j (by simpa [hj] using hasked)
      · by_cases hj : j = i
        · subst hj
          simp only [Function.update_self] at hasked
          exact .inr (.inr (.inl (by simp [hasked])))
        · rcases hnext.served j (by simpa [hj] using hasked) hjoined with hd | hm | hf | hr
          · exact .inl hd
          · exact .inr (.inl hm)
          · exact .inr (.inr (.inl (List.mem_append_left _ hf)))
          · exact .inr (.inr (.inr hr))
  | restart i =>
      cases hstep
      refine ⟨h.sound, fun j => ?_, fun j hasked => ?_, fun j hasked hjoined => ?_⟩
      · by_cases hj : j = i
        · subst hj
          simp [Startup.init]
        · simpa [hj] using h.closed j
      all_goals
        have hj : j ≠ i := by
          rintro rfl
          simp at hasked
      · simpa [hj] using h.asked j (by simpa [hj] using hasked)
      · have hasked' : st.asked j = true := by simpa [hj] using hasked
        have hjoined' : st.joined sel j = true := by simpa [State.joined, hj] using hjoined
        rcases h.served j hasked' hjoined' with hd | hm | hf | howes | ⟨hp, ha⟩
        · exact .inl (by simp [hj, hd])
        · exact .inr (.inl (by simp [hj, hm]))
        · refine .inr (.inr (.inl (List.mem_map.mpr ⟨some j, hf, ?_⟩)))
          rw [if_neg (by simpa using hj)]
        · exact .inr (.inr (.inr (.inl howes)))
        · exact .inr (.inr (.inr (.inr ⟨hp, by simp [hj, ha]⟩)))
  | deliver n =>
      obtain ⟨sender, hsender, rfl⟩ := Option.map_eq_some_iff.mp hstep
      exact h.receive hsender

theorem invariant_run {events : List (Event S)} (h : Invariant sel st)
    (hrun : Machine.run (State.step sel) st events = some st') : Invariant sel st' :=
  Machine.run_invariant (I := fun _ => Invariant sel) h (fun _ _ _ _ hinv hstep => hinv.step hstep)
    hrun

/-! ## Requests that are dropped for good -/

/-- The steps after which the resyncer may not listen although it has begun to broadcast. -/
def fails : Event S → Bool
  | .resyncer e => breaks e
  | _ => false

structure Faultless (st : State S) : Prop where
  unbroken : Unbroken st.resyncer
  missed : ∀ i, st.missed i = false

theorem Faultless.step (h : Faultless st) (hstep : st.step sel e = some st')
    (he : fails e = false) : Faultless st' := by
  cases e with
  | resyncer e =>
      obtain ⟨l, hl, rfl⟩ := Option.map_eq_some_iff.mp hstep
      exact ⟨h.unbroken.step hl he, h.missed⟩
  | restartResyncer =>
      cases hstep
      exact ⟨⟨.inl rfl, by simp [Loop.init], .inl rfl⟩, h.missed⟩
  | component i e =>
      simp only [State.step, Option.ite_none_left_eq_some] at hstep
      obtain ⟨component, _, rfl⟩ := Option.map_eq_some_iff.mp hstep.2
      exact ⟨h.unbroken, h.missed⟩
  | ask i sent =>
      obtain ⟨component, _, rfl⟩ := Option.map_eq_some_iff.mp hstep
      exact ⟨h.unbroken, h.missed⟩
  | restart i =>
      cases hstep
      refine ⟨h.unbroken, fun j => ?_⟩
      by_cases hj : j = i
      · simp [hj]
      · simpa [hj] using h.missed j
  | deliver n =>
      obtain ⟨sender, _, rfl⟩ := Option.map_eq_some_iff.mp hstep
      obtain ⟨hrequestErr, hready, hlistening⟩ := h.unbroken
      unfold State.receive
      split
      · exact ⟨⟨hrequestErr, hready, hlistening⟩, h.missed⟩
      · rename_i hdeaf
        have hfirst : st.resyncer.phase = .waiting ∨ st.resyncer.cancelled = true := by
          rcases hlistening with hwaiting | hlistening | hcancelled
          · exact .inl hwaiting
          · exact absurd hlistening hdeaf
          · exact .inr hcancelled
        rw [if_pos hfirst]
        exact ⟨h.unbroken, h.missed⟩

theorem faultless_run {events : List (Event S)} (h : Faultless st)
    (hrun : Machine.run (State.step sel) st events = some st')
    (hevents : ∀ e ∈ events, fails e = false) : Faultless st' := by
  refine Machine.run_invariant
    (I := fun played st => (∀ e ∈ played, fails e = false) → Faultless st)
    (fun _ => h) (fun played st e st' hinv hstep hplayed => ?_) hrun hevents
  exact (hinv fun e' he' => hplayed e' (by simp [he'])).step hstep (hplayed e (by simp))

/-! ## Progress -/

/-- The steps of the server and the resyncer that come without anything new from outside. -/
def internal : Event S → Bool
  | .deliver _ => true
  | .resyncer e => settles e
  | _ => false

/-- A bound on the number of such steps. -/
def pending (st : State S) : Nat := 4 * st.inFlight.length + remaining st.resyncer

theorem remaining_request (l : Loop) : remaining l.request ≤ remaining l + 3 := by
  grind [remaining, Loop.request]

omit [∀ i, DecidableEq (S i)] in
theorem pending_receive (st : State S) (sender : Option I) :
    (st.receive sender).resyncer.cancelled = st.resyncer.cancelled ∧
      pending (st.receive sender) ≤ pending st + 3 := by
  unfold State.receive
  split
  · have := remaining_request st.resyncer
    exact ⟨rfl, by simp only [pending]; omega⟩
  · split <;> exact ⟨rfl, Nat.le_add_right _ _⟩

/-- Such a step keeps the context and who has asked with a subscription, and leaves less. -/
theorem pending_step (hrunning : st.resyncer.cancelled = false) (he : internal e = true)
    (hstep : st.step sel e = some st') :
    st'.resyncer.cancelled = false ∧ pending st' < pending st := by
  cases e with
  | resyncer e =>
      obtain ⟨l, hl, rfl⟩ := Option.map_eq_some_iff.mp hstep
      obtain ⟨hcancelled, hless⟩ := remaining_step hrunning he hl
      exact ⟨hcancelled, by simpa [pending, State.observe] using hless⟩
  | deliver n =>
      obtain ⟨sender, hsender, rfl⟩ := Option.map_eq_some_iff.mp hstep
      have hn : n < st.inFlight.length := (List.getElem?_eq_some_iff.mp hsender).1
      obtain ⟨hcancelled, hle⟩ :=
        pending_receive { st with inFlight := st.inFlight.eraseIdx n } sender
      have hlength := List.length_eraseIdx_of_lt hn
      refine ⟨hcancelled.trans hrunning, ?_⟩
      simp only [pending, hlength] at hle ⊢
      omega
  | _ => cases he

theorem pending_run {work : List (Event S)} (hrunning : st.resyncer.cancelled = false)
    (hrun : Machine.run (State.step sel) st work = some st')
    (hwork : ∀ e ∈ work, internal e = true) :
    st'.resyncer.cancelled = false ∧ pending st' + work.length ≤ pending st := by
  refine Machine.run_invariant (I := fun played s => (∀ e ∈ played, internal e = true) →
    s.resyncer.cancelled = false ∧ pending s + played.length ≤ pending st)
    (fun _ => ⟨hrunning, Nat.le_refl _⟩) (fun played s e s' hinv hstep hplayed => ?_) hrun hwork
  obtain ⟨hcancelled, hle⟩ := hinv fun e' he' => hplayed e' (by simp [he'])
  obtain ⟨hcancelled', hless⟩ := pending_step hcancelled (hplayed e (by simp)) hstep
  exact ⟨hcancelled', by simp only [List.length_append, List.length_singleton]; omega⟩

/-- When no such step is possible, nothing is on its way and no broadcast is owed. -/
theorem stuck_settled (h : Invariant sel st) (hrunning : st.resyncer.cancelled = false)
    (hstuck : ∀ e : Event S, internal e = true → st.step sel e = none) (i : I) : ¬ Awaits st i := by
  have hloop : st.resyncer.phase = .idle ∧ st.resyncer.requested = false := by
    by_contra hbusy
    obtain ⟨e, he, hsome⟩ := exists_step h.sound hrunning (by
      rw [not_and_or] at hbusy
      simpa using hbusy)
    obtain ⟨l, hl⟩ := Option.isSome_iff_exists.mp hsome
    have hnone := hstuck (.resyncer e) he
    simp [State.step, hl] at hnone
  rintro (hflight | (hrequested | hwaiting | hcancelled) | ⟨hresyncing, _⟩)
  · obtain ⟨n, hn⟩ := List.mem_iff_getElem?.mp hflight
    have hnone := hstuck (.deliver n) rfl
    simp [State.step, hn] at hnone
  · simp [hloop.2] at hrequested
  · simp [hloop.1] at hwaiting
  · simp [hrunning] at hcancelled
  · simp [hloop.1] at hresyncing

/-- Who has asked and has a subscription is not changed by such steps. -/
theorem internal_components {work : List (Event S)}
    (hrun : Machine.run (State.step sel) st work = some st')
    (hwork : ∀ e ∈ work, internal e = true) :
    st'.asked = st.asked ∧ st'.components = st.components := by
  refine Machine.run_invariant (I := fun played s => (∀ e ∈ played, internal e = true) →
    s.asked = st.asked ∧ s.components = st.components)
    (fun _ => ⟨rfl, rfl⟩) (fun played s e s' hinv hstep hplayed => ?_) hrun hwork
  obtain ⟨hasked, hcomponents⟩ := hinv fun e' he' => hplayed e' (by simp [he'])
  have he := hplayed e (by simp)
  cases e with
  | resyncer e =>
      obtain ⟨l, _, rfl⟩ := Option.map_eq_some_iff.mp hstep
      exact ⟨hasked, hcomponents⟩
  | deliver n =>
      obtain ⟨sender, _, rfl⟩ := Option.map_eq_some_iff.mp hstep
      unfold State.receive
      split
      · exact ⟨hasked, hcomponents⟩
      · split <;> exact ⟨hasked, hcomponents⟩
  | _ => cases he

end System

/-! ## The deployments -/

/-- From every state that the deployments reach with a running controller: the work that is
left comes to an end whatever its order, and when it has, every component that asked and
still has its subscription has received a whole broadcast, or its request was dropped; and
no request is dropped as long as the subscription of the resyncer does not break. -/
theorem asked_caughtUp (history work : List (Event Component.Subscriptions))
    (st st' : State Component.Subscriptions) (h : State.Reaches Component.start history st)
    (hrunning : st.resyncer.cancelled = false) (hwork : ∀ e ∈ work, internal e = true)
    (hrun : Machine.run (State.step Component.start) st work = some st') :
    work.length ≤ 4 * st.inFlight.length + 13 ∧
      ((∀ e : Event Component.Subscriptions, internal e = true →
          st'.step Component.start e = none) →
        ∀ c, st.asked c = true → st.joined Component.start c = true →
          st'.caughtUp c = true ∨ st'.missed c = true) ∧
      ((∀ e ∈ history ++ work, fails e = false) → ∀ c, st'.missed c = false) := by
  have hinv : Invariant Component.start st := invariant_run (invariant_init _) h
  have hinv' := invariant_run hinv hrun
  obtain ⟨hrunning', hle⟩ := pending_run hrunning hrun hwork
  refine ⟨?_, fun hstuck c hasked hjoined => ?_, fun hfails => ?_⟩
  · have := remaining_le st.resyncer
    simp only [pending] at hle
    omega
  · obtain ⟨hsame, hcomponents⟩ := internal_components hrun hwork
    have hjoined' : st'.joined Component.start c = true := by
      rw [State.joined, hcomponents]
      exact hjoined
    rcases hinv'.served c (hsame ▸ hasked) hjoined' with hdone | hmissed | hawaits
    · exact .inl hdone
    · exact .inr hmissed
    · exact absurd hawaits (stuck_settled hinv' hrunning' hstuck c)
  · have hinit : Faultless (State.init : State Component.Subscriptions) :=
      ⟨⟨.inl rfl, by simp [State.init, Loop.init], .inl rfl⟩, fun _ => rfl⟩
    have hclean := faultless_run hinit h fun e he => hfails e (List.mem_append_left _ he)
    exact (faultless_run hclean hrun fun e he => hfails e (List.mem_append_right _ he)).missed

/-- A consumer asks before the resyncer listens, and its request is dropped; a receiver asks
during the first broadcast. -/
def coldStart : List (Event Component.Subscriptions) :=
  [.component (.consumer 0) (.ready MetricsConsumer.Subscription.specs), .ask (.consumer 0) true,
    .deliver 0, .resyncer .subscribed, .resyncer .registered, .resyncer .flushed,
    .resyncer (.select .ready), .component (.receiver 0) (.ready ()), .ask (.receiver 0) true]

def coldStartWork : List (Event Component.Subscriptions) :=
  [.deliver 0, .resyncer .resynced, .resyncer (.select .requested), .resyncer .resynced]

/-- A resyncer that has subscribed and has nothing to do. -/
def settled : Loop := ⟨.ready, true, true, true, none, false, false, false, .idle⟩

theorem settled_stuck (st : State Component.Subscriptions) (hloop : st.resyncer = settled)
    (hflight : st.inFlight = []) (e : Event Component.Subscriptions) (he : internal e = true) :
    st.step Component.start e = none := by
  cases e with
  | resyncer e =>
      have hnone : settled.step e = none := by
        cases e with
        | select c => cases c <;> rfl
        | tick | cancel | unsubscribed | disconnected => cases he
        | _ => rfl
      simp [State.step, hloop, hnone]
  | deliver n => simp [State.step, hflight]
  | _ => cases he

theorem coldStart_caughtUp :
    ∃ st st', State.Reaches Component.start coldStart st ∧
      Machine.run (State.step Component.start) st coldStartWork = some st' ∧
      st'.caughtUp (.consumer 0) = true ∧ st'.caughtUp (.receiver 0) = true := by
  obtain ⟨st, hst⟩ : ∃ st, Machine.run (State.step Component.start) .init coldStart = some st :=
    Option.isSome_iff_exists.mp (by decide +kernel)
  have hfacts : (Machine.run (State.step Component.start) .init coldStart).map (fun st =>
      (st.resyncer.cancelled, st.asked (.consumer 0), st.asked (.receiver 0),
        st.joined Component.start (.consumer 0), st.joined Component.start (.receiver 0))) =
      some (false, true, true, true, true) := by decide +kernel
  have hsettled : (Machine.run (State.step Component.start) .init coldStart).bind (fun st =>
      (Machine.run (State.step Component.start) st coldStartWork).map fun st' =>
        (st'.resyncer, st'.inFlight)) = some (settled, []) := by decide +kernel
  simp only [hst, Option.map_some, Option.some.injEq, Prod.mk.injEq] at hfacts
  simp only [hst, Option.bind_some, Prod.mk.injEq, Option.map_eq_some_iff] at hsettled
  obtain ⟨hrunning, hasked, hasked', hjoined, hjoined'⟩ := hfacts
  obtain ⟨st', hrun, hloop, hflight⟩ := hsettled
  obtain ⟨_, hcaught, hmissed⟩ :=
    asked_caughtUp coldStart coldStartWork st st' hst hrunning (by decide) hrun
  have hdropped := hmissed (by decide)
  have hstuck := hcaught (settled_stuck st' hloop hflight)
  refine ⟨st, st', hst, hrun, ?_, ?_⟩
  · exact (hstuck (.consumer 0) hasked hjoined).resolve_right (by simp [hdropped])
  · exact (hstuck (.receiver 0) hasked' hjoined').resolve_right (by simp [hdropped])

end SyntheticsOperator.Proofs.ColdStart
