import SyntheticsOperator.Proofs.Configuration
import SyntheticsOperator.Proofs.Identity
import SyntheticsOperator.Prober.Pipeline

/-!
# What a probe reports was scheduled

Between a registration and a metric lie a goroutine, two subjects of the bus and a worker,
and none of them knows the others' state.  Still, in every run: the entry of a probe is the
last result about it that was processed; such a result is of one run of a spec that was
registered for that probe and is not suspended; no job has two results; and one loop publishes
no two jobs within an interval.

* `regular_wake`: one turn of a loop;
* `move_of_step`: what a step can do;
* `accounted_step`: the jobs of all results are among those that were published.
-/

namespace SyntheticsOperator.Proofs.Pipeline

open SyntheticsOperator.Api (Library CrKey)
open SyntheticsOperator.MetricsConsumer (Message probeState)
open SyntheticsOperator.Metrics (ProbeState)
open SyntheticsOperator.Probes
open SyntheticsOperator.Prober
open SyntheticsOperator.Prober.Pipeline
open SyntheticsOperator.Results (ProbeJob ProbeResult SpecUpdate)
open SyntheticsOperator.Support
open scoped List

/-! ## Lists -/

section Lists

variable {α β : Type*} {l : List α} {i : Nat} {a a' : α}

theorem cons_eraseIdx_perm (h : l[i]? = some a) : (a :: l.eraseIdx i).Perm l := by
  obtain ⟨hi, rfl⟩ := List.getElem?_eq_some_iff.mp h
  exact List.getElem_cons_eraseIdx_perm hi

/-- What one element of a list gains, the list of all their parts gains. -/
theorem flatMap_set_perm {f : α → List β} {more : List β} (h : l[i]? = some a)
    (hmore : f a' = f a ++ more) : ((l.set i a').flatMap f).Perm (l.flatMap f ++ more) := by
  induction l generalizing i with
  | nil => simp at h
  | cons b l ih =>
      cases i with
      | zero =>
          obtain rfl : b = a := by simpa using h
          simp only [List.set_cons_zero, List.flatMap_cons, hmore, List.append_assoc]
          exact List.perm_append_comm.append_left _
      | succ i =>
          simp only [List.set_cons_succ, List.flatMap_cons, List.append_assoc]
          exact (ih (by simpa using h)).append_left _

end Lists

/-! ## The result of a job -/

section Result

variable {F : Type} [BEq F] [LT F] [LE F] [DecidableLT F] [DecidableLE F]
  {lib : Library F} {w : World} {job : ProbeJob}
  {out : ProbeResult}

/-- The result carries the identity and the time of the job. -/
structure Labelled (job : ProbeJob) (out : ProbeResult) : Prop where
  key : out.key = job.spec.key
  generation : out.generation = job.spec.generation
  timestamp : out.timestamp = job.scheduledAt

theorem Labelled.conclude (h : Labelled job out) (configError : Bool) (failure : Option String)
    (assertions : List Results.Assertion) (outcome : AssertionOutcome) :
    Labelled job (conclude out configError failure assertions outcome) := by
  unfold Probes.conclude
  split
  · exact ⟨h.key, h.generation, h.timestamp⟩
  · split
    · exact ⟨h.key, h.generation, h.timestamp⟩
    · split
      · exact ⟨h.key, h.generation, h.timestamp⟩
      · exact ⟨h.key, h.generation, h.timestamp⟩

theorem labelled_executeHTTP : Labelled job (executeHTTP lib w job) := by
  unfold executeHTTP
  split
  · exact ⟨rfl, rfl, rfl⟩
  · exact Labelled.conclude ⟨rfl, rfl, rfl⟩ ..

theorem labelled_executeDNS : Labelled job (executeDNS lib w job) := by
  unfold executeDNS
  split
  · exact ⟨rfl, rfl, rfl⟩
  · exact Labelled.conclude ⟨rfl, rfl, rfl⟩ ..

theorem labelled_executeTCP : Labelled job (executeTCP lib w job) := by
  unfold executeTCP
  split
  · exact ⟨rfl, rfl, rfl⟩
  · exact Labelled.conclude ⟨rfl, rfl, rfl⟩ ..

theorem labelled_execute {execute : World → ProbeJob → ProbeResult}
    (h : defaultExecutors lib job.spec.kind = some execute) : Labelled job (execute w job) := by
  unfold defaultExecutors at h
  split at h
  · cases h
    exact labelled_executeHTTP
  · cases h
    exact labelled_executeDNS
  · cases h
    exact labelled_executeTCP
  · cases h

theorem onJob_spec (h : onJob lib w job = some out) :
    Labelled job out ∧ job.spec.suspend = false := by
  unfold onJob at h
  cases hexecute : defaultExecutors lib job.spec.kind with
  | none =>
      rw [hexecute] at h
      cases h
  | some execute =>
      simp only [hexecute, Option.ite_none_left_eq_some, Option.some.injEq] at h
      obtain ⟨hsuspend, rfl⟩ := h
      exact ⟨labelled_execute hexecute, by simpa using hsuspend⟩

end Result

/-! ## One loop -/

/-- The jobs of a loop are of its own spec, and a whole interval apart. -/
structure Regular (p : ScheduledProbe) (loop : Loop) : Prop where
  spec : ∀ job ∈ loop.jobs, job.spec = p.spec
  apart : (0 : Int) ≤ p.interval →
    loop.jobs.Pairwise fun a b => a.scheduledAt.nanos + p.interval ≤ b.scheduledAt.nanos
  due : (0 : Int) ≤ p.interval →
    ∀ job ∈ loop.jobs, job.scheduledAt.nanos + p.interval ≤ loop.due.nanos

section Loop

variable {p : ScheduledProbe} {loop loop' : Loop} {w : Wake}

theorem regular_loop (now : Time) : Regular p (p.loop now) where
  spec _ h := nomatch h
  apart _ := .nil
  due _ _ h := nomatch h

theorem wake_jobs (h : p.wake loop w = some loop') : loop'.jobs = loop.jobs ++ published p w := by
  cases w with
  | done =>
      simp only [ScheduledProbe.wake, Option.ite_none_left_eq_some, Option.some.injEq] at h
      rw [← h.2]
      exact (List.append_nil _).symm
  | tick now reset =>
      simp only [ScheduledProbe.wake, Option.ite_none_right_eq_some, Option.some.injEq] at h
      rw [← h.2]
      rfl

theorem regular_wake (hregular : Regular p loop) (h : p.wake loop w = some loop') :
    Regular p loop' := by
  cases w with
  | done =>
      simp only [ScheduledProbe.wake, Option.ite_none_left_eq_some, Option.some.injEq] at h
      rw [← h.2]
      exact ⟨hregular.spec, hregular.apart, hregular.due⟩
  | tick now reset =>
      simp only [ScheduledProbe.wake, Option.ite_none_right_eq_some, Option.some.injEq] at h
      obtain ⟨⟨-, hdue, hreset⟩, rfl⟩ := h
      -- the timer was set to a whole interval after every job before this one
      have hbefore : (0 : Int) ≤ p.interval →
          ∀ job ∈ loop.jobs, job.scheduledAt.nanos + p.interval ≤ now.nanos :=
        fun hpos job hjob => (hregular.due hpos job hjob).trans hdue
      constructor
      · intro job hjob
        rcases List.mem_append.mp hjob with hjob | hjob
        · exact hregular.spec job hjob
        · rw [List.mem_singleton.mp hjob]
          rfl
      · intro hpos
        apply List.pairwise_append.mpr
        refine ⟨hregular.apart hpos, List.pairwise_singleton _ _, ?_⟩
        intro job hjob new hnew
        rw [List.mem_singleton.mp hnew]
        exact hbefore hpos job hjob
      · intro hpos job hjob
        rcases List.mem_append.mp hjob with hjob | hjob
        · have hjob := hbefore hpos job hjob
          simp only [Time.add]
          omega
        · rw [List.mem_singleton.mp hjob]
          simp only [Time.add, ScheduledProbe.job]
          omega

end Loop

/-! ## The steps of a run -/

section Run

variable {F : Type} [BEq F] [LT F] [LE F] [DecidableLT F] [DecidableLE F] {lib : Library F}

/-- What a step can do. -/
inductive Move (s : Pipeline lib) : Event → Pipeline lib → Prop where
  | call {c : Section} {service : Service} (h : s.service.step c = some service) :
      Move s (.call c) { s with service := service }
  | go {i : Nat} {now : Time} {p : ScheduledProbe} (h : p ∈ s.service.created) :
      Move s (.go i now) { s with loops := s.loops ++ [⟨p, p.loop now⟩] }
  | wake {i : Nat} {w : Wake} {r : Running} {loop : Loop} (hr : s.loops[i]? = some r)
      (h : r.scheduled.wake r.loop w = some loop) :
      Move s (.wake i w)
        { s with
          loops := s.loops.set i ⟨r.scheduled, loop⟩
          queue := s.queue ++ published r.scheduled w }
  | dropped {event : Event} (i : Nat) : Move s event { s with queue := s.queue.eraseIdx i }
  | ran {event : Event} {i : Nat} (e : Execution lib) (h : s.queue[i]? = some e.job) :
      Move s event { s with queue := s.queue.eraseIdx i, results := s.results ++ [e] }
  | processed {i : Nat} {e : Execution lib} (h : s.results[i]? = some e) :
      Move s (.process i)
        { s with
          results := s.results.eraseIdx i
          handled := s.handled ++ [e]
          store := MetricsConsumer.handle s.store (.probeResult e.result) }
  | lost {event : Event} (i : Nat) : Move s event { s with results := s.results.eraseIdx i }
  | other {m : Message} (h : ∀ msg, m ≠ .probeResult msg) :
      Move s (.other m) { s with store := MetricsConsumer.handle s.store m }

variable {s s' : Pipeline lib} {event : Event}

theorem move_deliver {i : Nat} {job : ProbeJob} (h : s.queue[i]? = some job) (w : World) :
    Move s event (s.deliver i w job) := by
  unfold deliver
  split
  · exact .dropped i
  · exact .ran ⟨w, job, _, ‹_›⟩ h

theorem move_of_step (h : s.step event = some s') : Move s event s' := by
  cases event with
  | call c =>
      obtain ⟨service, hservice, rfl⟩ := Option.map_eq_some_iff.mp h
      exact .call hservice
  | go i now =>
      cases hp : s.service.created[i]? with
      | none => simp [step, hp] at h
      | some p =>
          simp only [step, hp, Option.ite_none_left_eq_some, Option.some.injEq] at h
          rw [← h.2]
          exact .go (List.mem_of_getElem? hp)
  | wake i w =>
      cases hr : s.loops[i]? with
      | none => simp [step, hr] at h
      | some r =>
          simp only [step, hr, Option.ite_none_left_eq_some, Option.map_eq_some_iff] at h
          obtain ⟨-, loop, hloop, rfl⟩ := h
          exact .wake hr hloop
  | execute i w =>
      obtain ⟨job, hjob, rfl⟩ := Option.map_eq_some_iff.mp h
      exact move_deliver hjob w
  | loseJob i =>
      obtain ⟨_, _, rfl⟩ := Option.map_eq_some_iff.mp h
      exact .dropped i
  | process i =>
      obtain ⟨e, he, rfl⟩ := Option.map_eq_some_iff.mp h
      exact .processed he
  | loseResult i =>
      obtain ⟨_, _, rfl⟩ := Option.map_eq_some_iff.mp h
      exact .lost i
  | other m =>
      cases m with
      | probeResult msg => cases h
      | spec msg =>
          cases h
          exact .other fun _ heq => nomatch heq
      | testResult msg =>
          cases h
          exact .other fun _ heq => nomatch heq
      | ping now msg =>
          cases h
          exact .other fun _ heq => nomatch heq

/-! ### Every job at most once -/

/-- The jobs that the loops have published. -/
def ticked (s : Pipeline lib) : List ProbeJob := s.loops.flatMap (·.loop.jobs)

/-- The jobs that wait for a worker, and those of the results that exist. -/
def accounted (s : Pipeline lib) : List ProbeJob :=
  s.queue ++ (s.results.map (·.job) ++ s.handled.map (·.job))

theorem accounted_step (hconserved : (accounted s).Subperm (ticked s)) (h : Move s event s') :
    (accounted s').Subperm (ticked s') := by
  cases h with
  | call h => exact hconserved
  | other h => exact hconserved
  | go h =>
      have hticked : ∀ r : Running, ticked { s with loops := s.loops ++ [r] } =
          ticked s ++ r.loop.jobs := by simp [ticked]
      rw [hticked]
      exact hconserved.trans (List.sublist_append_left _ _).subperm
  | @wake i w r loop hr hloop =>
      have hticked : ((s.loops.set i ⟨r.scheduled, loop⟩).flatMap (·.loop.jobs)).Perm
          (ticked s ++ published r.scheduled w) := flatMap_set_perm hr (wake_jobs hloop)
      refine List.Subperm.trans ?_ hticked.symm.subperm
      have hmoved : (accounted { s with
          loops := s.loops.set i ⟨r.scheduled, loop⟩
          queue := s.queue ++ published r.scheduled w }).Perm
            (accounted s ++ published r.scheduled w) := by
        simp only [accounted, List.append_assoc]
        exact List.perm_append_comm.append_left _ |>.trans (by simp)
      exact hmoved.subperm.trans ((List.subperm_append_right _).mpr hconserved)
  | dropped i =>
      have hless : (s.queue.eraseIdx i).Sublist s.queue := List.eraseIdx_sublist ..
      exact (hless.append_right _).subperm.trans hconserved
  | lost i =>
      have hless : (s.results.eraseIdx i).Sublist s.results := List.eraseIdx_sublist ..
      exact (((hless.map _).append_right _).append_left _).subperm.trans hconserved
  | @ran _ i e hjob =>
      refine List.Subperm.trans (List.Perm.subperm ?_) hconserved
      have hqueue := cons_eraseIdx_perm hjob
      simp only [accounted, List.map_append, List.map_cons, List.map_nil, List.append_assoc,
        List.cons_append, List.nil_append]
      calc s.queue.eraseIdx i ++ (s.results.map (·.job) ++ e.job :: s.handled.map (·.job))
        _ ~ s.queue.eraseIdx i ++ e.job :: (s.results.map (·.job) ++ s.handled.map (·.job)) :=
            List.perm_middle.append_left _
        _ ~ e.job :: (s.queue.eraseIdx i ++ (s.results.map (·.job) ++ s.handled.map (·.job))) :=
            List.perm_middle
        _ ~ s.queue ++ (s.results.map (·.job) ++ s.handled.map (·.job)) :=
            hqueue.append_right _
  | @processed i e he =>
      refine List.Subperm.trans (List.Perm.subperm ?_) hconserved
      have hresults := (cons_eraseIdx_perm he).map (·.job)
      simp only [accounted, List.map_append, List.map_cons, List.map_nil]
      refine List.Perm.append_left _ ?_
      calc (s.results.eraseIdx i).map (·.job) ++ (s.handled.map (·.job) ++ [e.job])
        _ ~ (s.results.eraseIdx i).map (·.job) ++ e.job :: s.handled.map (·.job) :=
            List.perm_append_singleton _ _ |>.append_left _
        _ ~ e.job :: ((s.results.eraseIdx i).map (·.job) ++ s.handled.map (·.job)) :=
            List.perm_middle
        _ ~ s.results.map (·.job) ++ s.handled.map (·.job) := hresults.append_right _

/-! ### The entries of the store -/

/-- The last processed result about an identity. -/
def lastHandled (s : Pipeline lib) (key : CrKey) : Option (Execution lib) :=
  s.handled.reverse.find? fun e => decide (e.result.key = key)

/-- An entry is the state of the last processed result. -/
def Reported (s : Pipeline lib) : Prop :=
  ∀ key state, s.store.probes.lookup key = some state →
    ∃ e, lastHandled s key = some e ∧ state = probeState e.result

/-- A message of another stream writes no entry of a probe. -/
theorem lookup_other {m : Message} (h : ∀ msg, m ≠ .probeResult msg) {store : Metrics.Store}
    {key : CrKey} {state : ProbeState}
    (hlookup : (MetricsConsumer.handle store m).probes.lookup key = some state) :
    store.probes.lookup key = some state := by
  by_cases hkey : m.key = key
  · subst hkey
    have hentries := congrArg Identity.Entries.probe (Identity.entries_handle_self store m)
    change (MetricsConsumer.handle store m).probes.lookup m.key = _ at hentries
    rw [hlookup] at hentries
    cases m with
    | probeResult msg => exact absurd rfl (h msg)
    | spec msg =>
        simp only [Identity.Entries.handle] at hentries
        split at hentries
        · cases hentries
        · exact hentries.symm
    | testResult msg => exact hentries.symm
    | ping now msg => exact hentries.symm
  · rw [(Tombstone.sameAt_handle store (Ne.symm hkey)).probes] at hlookup
    exact hlookup

theorem lookup_processed (store : Metrics.Store) (result : ProbeResult) (key : CrKey) :
    (MetricsConsumer.handle store (.probeResult result)).probes.lookup key =
      if result.key = key then some (probeState result) else store.probes.lookup key := by
  split
  · rename_i hkey
    rw [← hkey]
    exact Finmap.lookup_insert _
  · rename_i hkey
    exact (Tombstone.sameAt_handle store (m := .probeResult result) (Ne.symm hkey)).probes

theorem reported_step (hreported : Reported s) (h : Move s event s') : Reported s' := by
  cases h with
  | call h => exact hreported
  | go h => exact hreported
  | wake hr h => exact hreported
  | dropped i => exact hreported
  | ran e h => exact hreported
  | lost i => exact hreported
  | other h => exact fun key state hlookup => hreported key state (lookup_other h hlookup)
  | @processed i e he =>
      intro key state hlookup
      rw [lookup_processed] at hlookup
      simp only [lastHandled, List.reverse_append, List.reverse_singleton, List.singleton_append,
        List.find?_cons]
      by_cases hkey : e.result.key = key
      · rw [if_pos hkey] at hlookup
        rw [decide_eq_true hkey]
        exact ⟨e, rfl, (Option.some.inj hlookup).symm⟩
      · rw [if_neg hkey] at hlookup
        rw [decide_eq_false hkey]
        exact hreported key state hlookup

/-! ### The registrations -/

/-- Only `Register` makes a scheduled probe. -/
theorem created_step {service service' : Service} {c : Section}
    (h : service.step c = some service') :
    ∃ new, service'.created = service.created ++ new ∧
      ∀ p ∈ new, c = .register p.spec ∧ p.interval = p.spec.intervalMs * 1000000 := by
  have hsame : service'.created = service.created → ∃ new,
      service'.created = service.created ++ new ∧
        ∀ p ∈ new, c = .register p.spec ∧ p.interval = p.spec.intervalMs * 1000000 :=
    fun heq => ⟨[], by rw [heq, List.append_nil], fun _ hp => nomatch hp⟩
  cases c with
  | start =>
      simp only [Service.step, Option.ite_none_right_eq_some, Option.some.injEq] at h
      apply hsame
      rw [← h.2]
  | shutdown =>
      simp only [Service.step, Option.ite_none_right_eq_some, Option.some.injEq] at h
      apply hsame
      rw [← h.2]
  | cancel =>
      cases h
      exact hsame rfl
  | unregister key =>
      cases h
      exact hsame rfl
  | register spec =>
      cases h
      refine ⟨_, rfl, ?_⟩
      intro p hp
      cases hstarted : service.scheduler.started with
      | false =>
          simp [Scheduler.register_of_not_started hstarted, Scheduler.lookup_unregister] at hp
      | true =>
          simp only [Scheduler.lookup_register hstarted, Option.toList_some,
            List.mem_singleton] at hp
          rw [hp]
          exact ⟨rfl, rfl⟩

/-- The loops run what was registered. -/
structure Scheduled (events : List Event) (s : Pipeline lib) : Prop where
  registered : ∀ p ∈ s.service.created, .call (.register p.spec) ∈ events ∧
    p.interval = p.spec.intervalMs * 1000000
  started : ∀ r ∈ s.loops, r.scheduled ∈ s.service.created
  regular : ∀ r ∈ s.loops, Regular r.scheduled r.loop

theorem scheduled_step {events : List Event} (hscheduled : Scheduled events s)
    (h : Move s event s') : Scheduled (events ++ [event]) s' := by
  have hregistered : ∀ p ∈ s.service.created, .call (.register p.spec) ∈ events ++ [event] ∧
      p.interval = p.spec.intervalMs * 1000000 := by
    intro p hp
    obtain ⟨hmem, hinterval⟩ := hscheduled.registered p hp
    exact ⟨List.mem_append_left _ hmem, hinterval⟩
  cases h with
  | dropped i => exact ⟨hregistered, hscheduled.started, hscheduled.regular⟩
  | ran e h => exact ⟨hregistered, hscheduled.started, hscheduled.regular⟩
  | processed h => exact ⟨hregistered, hscheduled.started, hscheduled.regular⟩
  | lost i => exact ⟨hregistered, hscheduled.started, hscheduled.regular⟩
  | other h => exact ⟨hregistered, hscheduled.started, hscheduled.regular⟩
  | call h =>
      obtain ⟨new, hcreated, hnew⟩ := created_step h
      refine ⟨?_, ?_, hscheduled.regular⟩
      · intro p hp
        rw [hcreated] at hp
        rcases List.mem_append.mp hp with hp | hp
        · exact hregistered p hp
        · obtain ⟨hc, hinterval⟩ := hnew p hp
          rw [hc]
          exact ⟨List.mem_append_right _ (List.mem_singleton_self _), hinterval⟩
      · intro r hr
        rw [hcreated]
        exact List.mem_append_left _ (hscheduled.started r hr)
  | @go i now p hp =>
      refine ⟨hregistered, ?_, ?_⟩
      · intro r hr
        rcases List.mem_append.mp hr with hr | hr
        · exact hscheduled.started r hr
        · rw [List.mem_singleton.mp hr]
          exact hp
      · intro r hr
        rcases List.mem_append.mp hr with hr | hr
        · exact hscheduled.regular r hr
        · rw [List.mem_singleton.mp hr]
          exact regular_loop now
  | @wake i w r loop hr hloop =>
      have hmem : r ∈ s.loops := List.mem_of_getElem? hr
      refine ⟨hregistered, ?_, ?_⟩
      · intro r' hr'
        rcases List.mem_or_eq_of_mem_set hr' with hr' | rfl
        · exact hscheduled.started r' hr'
        · exact hscheduled.started r hmem
      · intro r' hr'
        rcases List.mem_or_eq_of_mem_set hr' with hr' | rfl
        · exact hscheduled.regular r' hr'
        · exact regular_wake (hscheduled.regular r hmem) hloop

/-! ## Every run -/

/-- What the consumer shows was scheduled. -/
structure FollowsSchedule (events : List Event) (s : Pipeline lib) : Prop where
  entry : ∀ key state, s.store.probes.lookup key = some state →
    ∃ e, lastHandled s key = some e ∧ state = probeState e.result
  /-- a result is of a run of a spec that was registered and is not suspended -/
  run : ∀ e ∈ s.handled, ∃ r ∈ s.loops, e.job ∈ r.loop.jobs ∧
    .call (.register r.scheduled.spec) ∈ events ∧ e.job.spec = r.scheduled.spec ∧
    r.scheduled.spec.suspend = false ∧ Labelled e.job e.result
  /-- of each job at most one result is on its way or processed -/
  once : ((s.results ++ s.handled).map (·.job)).Subperm (ticked s)
  apart : ∀ r ∈ s.loops, 0 ≤ r.scheduled.spec.intervalMs → r.loop.jobs.Pairwise fun a b =>
    a.scheduledAt.nanos + r.scheduled.spec.intervalMs * 1000000 ≤ b.scheduledAt.nanos

theorem invariant_run {events : List Event} (h : Pipeline.run lib events = some s) :
    (accounted s).Subperm (ticked s) ∧ Reported s ∧ Scheduled events s := by
  refine Machine.run_invariant (I := fun events s =>
    (accounted s).Subperm (ticked s) ∧ Reported s ∧ Scheduled events s) ?_ ?_ h
  · refine ⟨List.nil_subperm, ?_, ⟨?_, ?_, ?_⟩⟩
    · exact fun _ _ h => nomatch h
    · exact fun _ h => nomatch h
    · exact fun _ h => nomatch h
    · exact fun _ h => nomatch h
  · rintro events s event s' ⟨hconserved, hreported, hscheduled⟩ hstep
    have hmove := move_of_step hstep
    exact ⟨accounted_step hconserved hmove, reported_step hreported hmove,
      scheduled_step hscheduled hmove⟩

/-- Whatever the order in which goroutines, workers and messages take their turns, and
whatever is lost. -/
theorem results_follow_schedule (lib : Library F) (events : List Event) (s : Pipeline lib)
    (h : Pipeline.run lib events = some s) : FollowsSchedule events s := by
  obtain ⟨hconserved, hreported, hscheduled⟩ := invariant_run h
  have honce : ((s.results ++ s.handled).map (·.job)).Subperm (ticked s) := by
    rw [List.map_append]
    exact (List.sublist_append_right _ _).subperm.trans hconserved
  refine ⟨hreported, ?_, honce, ?_⟩
  · intro e he
    obtain ⟨r, hr, hjob⟩ := List.mem_flatMap.mp (honce.subset (List.mem_map_of_mem
      (List.mem_append_right _ he)))
    obtain ⟨hlabelled, hsuspend⟩ := onJob_spec e.ran
    have hspec := (hscheduled.regular r hr).spec e.job hjob
    rw [hspec] at hsuspend
    exact ⟨r, hr, hjob, (hscheduled.registered _ (hscheduled.started r hr)).1, hspec, hsuspend,
      hlabelled⟩
  · intro r hr hpos
    have hinterval := (hscheduled.registered _ (hscheduled.started r hr)).2
    have hapart := (hscheduled.regular r hr).apart
    rw [hinterval] at hapart
    exact hapart (by omega)

end Run

/-- The TCPProbe `default/db`, every 30 seconds. -/
def database : SpecUpdate where
  kind := .tcpProbe
  name := "db"
  ns := "default"
  intervalMs := 30000
  tcpProbe := some { host := "db.internal", port := 5432, timeoutMs := 5000, assertions := [] }

/-- Two ticks, of which the first result comes late and the second job is lost. -/
def slowWorker : List Event :=
  [.call .start, .call (.register database), .go 0 ⟨0⟩, .wake 0 (.tick ⟨30000000000⟩ ⟨30000000000⟩),
    .execute 0 Configuration.answering, .wake 0 (.tick ⟨60000000000⟩ ⟨60000000000⟩), .loseJob 0,
    .process 0]

theorem results_follow_schedule_slow :
    ∃ s, Pipeline.run Library.sample slowWorker = some s ∧ s.handled.length = 1 ∧
      FollowsSchedule slowWorker s := by
  have hsome : (Pipeline.run Library.sample slowWorker).map (·.handled.length) = some 1 := by
    decide +kernel
  obtain ⟨s, hrun, hlength⟩ := Option.map_eq_some_iff.mp hsome
  exact ⟨s, hrun, hlength, results_follow_schedule Library.sample slowWorker s hrun⟩

end SyntheticsOperator.Proofs.Pipeline
