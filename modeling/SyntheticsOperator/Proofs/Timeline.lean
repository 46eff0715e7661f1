import SyntheticsOperator.Events.Notifier
import SyntheticsOperator.Proofs.Identity

/-!
# The Events of a resource tell its results

Events are recorded when the result of a run differs from the one before.  Read in order,
the Events of a probe or a test are a path from the result that the store had to the one it
has: no change is missing, none is told twice, and a recovery names the failure before it.
Only a deletion breaks the path, since the store starts over.

A Heartbeat is left out: its result also changes with the clock, and no Event tells that.
-/

namespace SyntheticsOperator.Proofs.Timeline

open SyntheticsOperator.Api
open SyntheticsOperator.Events
open SyntheticsOperator.Metrics
open SyntheticsOperator.MetricsConsumer
open SyntheticsOperator.Proofs.Identity
open SyntheticsOperator.Proofs.Tombstone (sameAt_handle)
open SyntheticsOperator.Results (SpecUpdate ProbeResult TestResult)
open SyntheticsOperator.Support

/-! ## The timeline of a resource -/

/-- An Event, or the tombstone of the resource. -/
inductive Entry where
  | event (e : Event)
  | deleted
deriving DecidableEq

section Timeline

variable (get : CrKey → Bool)

def entry (s : Store) : Message → Option Entry
  | .spec msg => if msg.deleted then some .deleted else none
  | m => (announce get s m).map .event

/-- What the messages about one resource add to its timeline. -/
def timeline (key : CrKey) (s : Store) : List Message → List Entry
  | [] => []
  | m :: messages =>
      (if m.key = key then entry get s m else none).toList ++ timeline key (handle s m) messages

end Timeline

/-- The two maps of results that Events are recorded for. -/
inductive Family where
  | probe
  | test
deriving DecidableEq

def family : Kind → Option Family
  | .httpProbe | .dnsProbe | .tcpProbe => some .probe
  | .k6Test | .playwrightTest => some .test
  | _ => none

/-- The result of the last run, as the store has it. -/
def lastResult (s : Store) (key : CrKey) : Result :=
  match family key.kind with
  | some .test => ((s.tests.lookup key).map (·.result)).getD .unset
  | _ => ((s.probes.lookup key).map (·.result)).getD .unset

def activeReason (kind : Kind) : String :=
  if family kind = some .test then reasonTestActive else reasonProbeActive

def failedReason (kind : Kind) : String :=
  if family kind = some .test then reasonTestFailed else reasonProbeFailed

/-- The Event of a success after the result `prev`. -/
def activeEvent (key : CrKey) (prev : Result) : Event :=
  ⟨key, .normal, activeReason key.kind,
    if prev.text ≠ "" then "recovered from " ++ prev.text else "run succeeded"⟩

/-- The Event of a failure. -/
def failedEvent (key : CrKey) (next : Result) : Event :=
  ⟨key, .warning, failedReason key.kind, "run failed: " ++ next.text⟩

/-- The entries lead from one result to another: each Event tells a change, and a deletion
starts over. -/
inductive Tells (key : CrKey) : Result → List Entry → Result → Prop where
  | nil (r : Result) : Tells key r [] r
  | deleted {r r' : Result} {entries : List Entry} (h : Tells key .unset entries r') :
      Tells key r (.deleted :: entries) r'
  | active {r r' : Result} {entries : List Entry} (hne : r ≠ .ok) (h : Tells key .ok entries r') :
      Tells key r (.event (activeEvent key r) :: entries) r'
  | failed {r next r' : Result} {entries : List Entry} (hne : next ≠ r) (hfailed : next ≠ .ok)
      (h : Tells key next entries r') : Tells key r (.event (failedEvent key next) :: entries) r'

/-! ## One message -/

section Step

variable {get : CrKey → Bool} {key : CrKey} {s : Store} {r : Result} {entries : List Entry}

/-- What the two callbacks have in common. -/
theorem tells_transition {prev next : Result} {callback : Transition → Option Event}
    (hcallback : ∀ prev next, callback ⟨key.name, key.kind, prev, next⟩ =
      emit get key (activeReason key.kind) (failedReason key.kind) prev next)
    (hget : get key = true) (h : Tells key next entries r) :
    Tells key prev
      ((((transition key.name key.kind prev next).bind callback).map Entry.event).toList ++
        entries) r := by
  unfold transition
  split
  · rename_i hne
    rw [Option.bind_some, hcallback]
    unfold emit
    rw [if_pos hget]
    split
    · exact .active hne h
    · exact .failed (Ne.symm hne) ‹_› h
  · rename_i heq
    rw [not_ne_iff.mp heq]
    exact h

theorem lastResult_congr {s' : Store} (hprobes : s.probes.lookup key = s'.probes.lookup key)
    (htests : s.tests.lookup key = s'.tests.lookup key) :
    lastResult s key = lastResult s' key := by
  unfold lastResult
  split <;> simp only [hprobes, htests]

theorem tells_spec {msg : SpecUpdate} (hkey : msg.key = key)
    (h : Tells key (lastResult (onSpec s msg) key) entries r) :
    Tells key (lastResult s key) ((entry get s (.spec msg)).toList ++ entries) r := by
  have hentries := entries_onSpec s msg
  rw [hkey] at hentries
  have hprobes := congrArg Entries.probe hentries
  have htests := congrArg Entries.test hentries
  cases hdeleted : msg.deleted with
  | true =>
      simp only [Entries.handle, hdeleted, if_true] at hprobes htests
      have hunset : lastResult (onSpec s msg) key = .unset := by
        have hp : (onSpec s msg).probes.lookup key = none := hprobes
        have ht : (onSpec s msg).tests.lookup key = none := htests
        unfold lastResult
        split <;> simp only [hp, ht] <;> rfl
      rw [hunset] at h
      simp only [entry, hdeleted, if_true]
      exact .deleted h
  | false =>
      simp only [Entries.handle, hdeleted, Bool.false_eq_true, if_false] at hprobes htests
      rw [lastResult_congr hprobes htests] at h
      simp only [entry, hdeleted, Bool.false_eq_true, if_false]
      exact h

section Callbacks

variable (get) (prev next : Result)

theorem onProbeTransition_probe (h : family key.kind = some .probe) :
    onProbeTransition get ⟨key.name, key.kind, prev, next⟩ =
      emit get key (activeReason key.kind) (failedReason key.kind) prev next := by
  obtain ⟨kind, name⟩ := key
  cases kind <;> first | rfl | cases h

theorem onProbeTransition_test (h : family key.kind = some .test) :
    onProbeTransition get ⟨key.name, key.kind, prev, next⟩ = none := by
  obtain ⟨kind, name⟩ := key
  cases kind <;> first | rfl | cases h

theorem onTestTransition_test (h : family key.kind = some .test) :
    onTestTransition get ⟨key.name, key.kind, prev, next⟩ =
      emit get key (activeReason key.kind) (failedReason key.kind) prev next := by
  obtain ⟨kind, name⟩ := key
  cases kind <;> first | rfl | cases h

theorem onTestTransition_probe (h : family key.kind = some .probe) :
    onTestTransition get ⟨key.name, key.kind, prev, next⟩ = none := by
  obtain ⟨kind, name⟩ := key
  cases kind <;> first | rfl | cases h

end Callbacks

/-- The transition of a resource that its callback does not know is not told. -/
theorem tells_silent {prev next : Result} {callback : Transition → Option Event}
    (hcallback : ∀ prev next, callback ⟨key.name, key.kind, prev, next⟩ = none)
    (h : Tells key (lastResult s key) entries r) :
    Tells key (lastResult s key)
      ((((transition key.name key.kind prev next).bind callback).map Entry.event).toList ++
        entries) r := by
  unfold transition
  split
  · rw [Option.bind_some, hcallback]
    exact h
  · exact h

theorem tells_probeResult (hget : get key = true) (hfamily : (family key.kind).isSome = true)
    {msg : ProbeResult} (hkey : msg.key = key)
    (h : Tells key (lastResult (onProbeResult s msg).1 key) entries r) :
    Tells key (lastResult s key) ((entry get s (.probeResult msg)).toList ++ entries) r := by
  subst hkey
  obtain ⟨f, hf⟩ := Option.isSome_iff_exists.mp hfamily
  cases f with
  | test =>
      have hsame : lastResult (onProbeResult s msg).1 msg.key = lastResult s msg.key := by
        simp only [lastResult, hf]
        rfl
      rw [hsame] at h
      exact tells_silent (onProbeTransition_test get · · hf) h
  | probe =>
      have hnext : lastResult (onProbeResult s msg).1 msg.key = .ofText msg.result := by
        simp only [lastResult, hf]
        have hlookup : (onProbeResult s msg).1.probes.lookup msg.key = some (probeState msg) :=
          Finmap.lookup_insert _
        rw [hlookup]
        rfl
      have hprev : lastResult s msg.key =
          ((s.probes.lookup msg.key).map (·.result)).getD .unset := by
        simp only [lastResult, hf]
      rw [hnext] at h
      rw [hprev]
      exact tells_transition (onProbeTransition_probe get · · hf) hget h

theorem tells_testResult (hget : get key = true) (hfamily : (family key.kind).isSome = true)
    {msg : TestResult} (hkey : msg.key = key)
    (h : Tells key (lastResult (onTestResult s msg).1 key) entries r) :
    Tells key (lastResult s key) ((entry get s (.testResult msg)).toList ++ entries) r := by
  subst hkey
  obtain ⟨f, hf⟩ := Option.isSome_iff_exists.mp hfamily
  simp only [entry, announce]
  rw [onTestResult_testState] at h ⊢
  cases f with
  | probe =>
      have hsame : lastResult (s.upsertTest ⟨msg.ns, msg.name⟩ (testState msg)).1 msg.key =
          lastResult s msg.key := by
        simp only [lastResult, hf]
        rfl
      rw [hsame] at h
      exact tells_silent (onTestTransition_probe get · · hf) h
  | test =>
      have hnext : lastResult (s.upsertTest ⟨msg.ns, msg.name⟩ (testState msg)).1 msg.key =
          resultFromSuccess msg.success := by
        simp only [lastResult, hf]
        have hlookup : (s.upsertTest ⟨msg.ns, msg.name⟩ (testState msg)).1.tests.lookup msg.key =
            some (testState msg) := Finmap.lookup_insert _
        rw [hlookup]
        rfl
      have hprev : lastResult s msg.key =
          ((s.tests.lookup msg.key).map (·.result)).getD .unset := by
        simp only [lastResult, hf]
      rw [hnext] at h
      rw [hprev]
      exact tells_transition (onTestTransition_test get · · hf) hget h

theorem tells_handle (hget : get key = true) (hfamily : (family key.kind).isSome = true)
    {m : Message} (h : Tells key (lastResult (handle s m) key) entries r) :
    Tells key (lastResult s key)
      ((if m.key = key then entry get s m else none).toList ++ entries) r := by
  by_cases hkey : m.key = key
  · rw [if_pos hkey]
    cases m with
    | spec msg => exact tells_spec hkey h
    | probeResult msg => exact tells_probeResult hget hfamily hkey h
    | testResult msg => exact tells_testResult hget hfamily hkey h
    | ping now msg =>
        rw [← hkey] at hfamily
        cases hfamily
  · have hsame := sameAt_handle s (Ne.symm hkey)
    rw [if_neg hkey]
    rw [lastResult_congr hsame.probes hsame.tests] at h
    exact h

end Step

/-- For every history of messages, from any store: the timeline of a probe or a test that the
notifier can read leads from the result that the store had to the one that it has. -/
theorem events_tell_results (get : CrKey → Bool) (key : CrKey) (hget : get key = true)
    (hfamily : (family key.kind).isSome = true) (s : Store) (messages : List Message) :
    Tells key (lastResult s key) (timeline get key s messages)
      (lastResult (run s messages) key) := by
  induction messages generalizing s with
  | nil => exact .nil _
  | cons m messages ih => exact tells_handle hget hfamily (ih (handle s m))

/-- A result of the probe `web`. -/
def flaky (result : String) : Message :=
  .probeResult { kind := .httpProbe, name := "web", ns := "default", timestamp := ⟨0⟩,
                 result := result }

def flakyKey : CrKey := ⟨.httpProbe, ⟨"default", "web"⟩⟩

/-- It fails, fails in another way, recovers, is deleted and fails again. -/
def flakyHistory : List Message :=
  [flaky "recv_timeout", flaky "recv_timeout", flaky "tls_failed", flaky "ok", flaky "ok",
    .spec { kind := .httpProbe, name := "web", ns := "default", deleted := true },
    flaky "tls_failed"]

theorem events_tell_results_flaky :
    Tells flakyKey .unset
      [.event (failedEvent flakyKey .recvTimeout), .event (failedEvent flakyKey .tlsFailed),
        .event (activeEvent flakyKey .tlsFailed), .deleted,
        .event (failedEvent flakyKey .tlsFailed)] .tlsFailed := by
  have htimeline : timeline (fun _ => true) flakyKey .empty flakyHistory =
      [.event (failedEvent flakyKey .recvTimeout), .event (failedEvent flakyKey .tlsFailed),
        .event (activeEvent flakyKey .tlsFailed), .deleted,
        .event (failedEvent flakyKey .tlsFailed)] := by decide +kernel
  have hlast : lastResult (run .empty flakyHistory) flakyKey = .tlsFailed := by decide +kernel
  have hfirst : lastResult .empty flakyKey = .unset := by decide +kernel
  rw [← htimeline, ← hlast, ← hfirst]
  exact events_tell_results (fun _ => true) flakyKey rfl rfl .empty flakyHistory

end SyntheticsOperator.Proofs.Timeline
