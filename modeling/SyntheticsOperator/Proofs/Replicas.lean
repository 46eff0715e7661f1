import SyntheticsOperator.NatsBus.Start
import SyntheticsOperator.Proofs.Identity
import SyntheticsOperator.Proofs.HeartbeatHistory
import SyntheticsOperator.Support.Interleavings

/-!
# Replicas of the consumer

Every replica subscribes to the four streams on its own, and nothing orders the messages of
one stream against those of another.  Two replicas that receive the same streams agree
about an identity in all that one stream decides, unless the identity was deleted in
between: a tombstone and a result do not commute.  The last ping of a Heartbeat is decided
by two streams, its pings and the seed of the spec that creates its entry, so there the
replicas also have to receive the spec first.
-/

namespace SyntheticsOperator.Proofs.Replicas

open SyntheticsOperator.Api
open SyntheticsOperator.Heartbeat
open SyntheticsOperator.Metrics
open SyntheticsOperator.MetricsConsumer
open SyntheticsOperator.Proofs.Identity
open SyntheticsOperator.Proofs.HeartbeatHistory
open SyntheticsOperator.Results (SpecUpdate HeartbeatPing)
open SyntheticsOperator.Support
open SyntheticsOperator.Support.Interleavings

/-- The stream a message is received on. -/
def subscription : Message → Subscription
  | .spec _ => .specs
  | .probeResult _ => .probeResults
  | .testResult _ => .testResults
  | .ping _ _ => .heartbeatPings

/-! ## Messages of different streams -/

def tombstone : Message → Bool
  | .spec msg => msg.deleted
  | _ => false

/-- Two replicas agree about an identity, the last ping apart. -/
structure AgreeButLastPing (e e' : Entries) : Prop where
  probe : e.probe = e'.probe
  test : e.test = e'.test
  contract : e.heartbeat.map contract = e'.heartbeat.map contract
  depends : e.depends = e'.depends
  metricLabels : e.metricLabels = e'.metricLabels

theorem agreeButLastPing_equivalence : Equivalence AgreeButLastPing where
  refl _ := ⟨rfl, rfl, rfl, rfl, rfl⟩
  symm h := ⟨h.probe.symm, h.test.symm, h.contract.symm, h.depends.symm, h.metricLabels.symm⟩
  trans h h' := ⟨h.probe.trans h'.probe, h.test.trans h'.test, h.contract.trans h'.contract,
    h.depends.trans h'.depends, h.metricLabels.trans h'.metricLabels⟩

/-- The contract that a live spec brings, if it is one of a Heartbeat. -/
def specContract (msg : SpecUpdate) : Option Contract :=
  match msg.kind, msg.heartbeat with
  | .heartbeat, some payload =>
      some ⟨payload.periodMs / 1000, payload.graceMs / 1000, msg.suspend⟩
  | _, _ => none

theorem contract_specState (h : Option Lifecycle.State) (msg : SpecUpdate) :
    (specState h msg).map contract = (specContract msg).or (h.map contract) := by
  unfold specState specContract
  cases msg.kind <;> cases msg.heartbeat <;> simp [contract_applySpec]

theorem contract_pingState (h : Option Lifecycle.State) (msg : HeartbeatPing) :
    contract (pingState h msg) = (h.map contract).getD (contract .zero) := by
  rw [pingState, contract_recordPing]
  cases h <;> rfl

theorem agree_handle {m : Message} {e e' : Entries} (h : AgreeButLastPing e e') :
    AgreeButLastPing (e.handle m) (e'.handle m) := by
  obtain ⟨hprobe, htest, hcontract, hdepends, hlabels⟩ := h
  cases m with
  | spec msg =>
      cases hdeleted : msg.deleted with
      | true =>
          simp only [Entries.handle, hdeleted, if_true]
          exact agreeButLastPing_equivalence.refl _
      | false =>
          simp only [Entries.handle, hdeleted, Bool.false_eq_true, if_false]
          exact ⟨hprobe, htest, by simp only [contract_specState, hcontract], rfl, rfl⟩
  | probeResult msg => exact ⟨rfl, htest, hcontract, hdepends, hlabels⟩
  | testResult msg => exact ⟨hprobe, rfl, hcontract, hdepends, hlabels⟩
  | ping now msg =>
      refine ⟨hprobe, htest, ?_, hdepends, hlabels⟩
      simp only [Entries.handle, Option.map_some, contract_pingState, hcontract]

/-- Live messages of different streams write different entries, except that a spec and a ping
both write that of the Heartbeat.  `R` is what they agree about there. -/
theorem handle_comm {R : Entries → Entries → Prop} (hR : Equivalence R) {e : Entries}
    (hspec : ∀ spec now ping, spec.deleted = false →
      R ((e.handle (.spec spec)).handle (.ping now ping))
        ((e.handle (.ping now ping)).handle (.spec spec)))
    {m m' : Message} (hm : tombstone m = false) (hm' : tombstone m' = false)
    (hne : subscription m ≠ subscription m') :
    R ((e.handle m).handle m') ((e.handle m').handle m) := by
  cases m <;> cases m' <;>
    first
    | exact absurd rfl hne
    | exact hspec _ _ _ hm
    | exact hR.symm (hspec _ _ _ hm')
    | simp_all [Entries.handle, tombstone, hR.refl]

/-- The two orders of a spec and a ping differ in the last ping only. -/
theorem agree_spec_ping (e : Entries) {spec : SpecUpdate} (now : Time) (ping : HeartbeatPing)
    (hlive : spec.deleted = false) :
    AgreeButLastPing ((e.handle (.spec spec)).handle (.ping now ping))
      ((e.handle (.ping now ping)).handle (.spec spec)) := by
  simp only [Entries.handle, hlive, Bool.false_eq_true, if_false]
  refine ⟨rfl, rfl, ?_, rfl, rfl⟩
  simp only [Option.map_some, contract_specState, contract_pingState]
  cases specContract spec <;> rfl

theorem recordPing_applySpec (state : Lifecycle.State) (period grace : ℚ) (suspend : Bool)
    (seed : Lifecycle.Seed) (failed : Bool) (exitCode : Int) (t : ℚ) :
    Lifecycle.recordPing (Lifecycle.applySpec state true period grace suspend seed) failed exitCode
        t =
      Lifecycle.applySpec (Lifecycle.recordPing state failed exitCode t) true period grace suspend
        seed := by
  simp only [Lifecycle.applySpec, Lifecycle.recordPing, Bool.not_true, Bool.false_and,
    Bool.false_eq_true, if_false]
  split <;> rfl

/-- Once a Heartbeat has an entry no seed applies, and the two orders are the same. -/
theorem handle_spec_ping {e : Entries} (he : e.heartbeat.isSome = true) {spec : SpecUpdate}
    (now : Time) (ping : HeartbeatPing) (hlive : spec.deleted = false) :
    (e.handle (.spec spec)).handle (.ping now ping) =
      (e.handle (.ping now ping)).handle (.spec spec) := by
  obtain ⟨state, hstate⟩ := Option.isSome_iff_exists.mp he
  simp only [Entries.handle, hlive, Bool.false_eq_true, if_false, hstate]
  congr 1
  unfold specState
  split
  · exact congrArg some (recordPing_applySpec ..)
  · rfl

theorem heartbeat_isSome_handle {e : Entries} (he : e.heartbeat.isSome = true) {m : Message}
    (hm : tombstone m = false) : (e.handle m).heartbeat.isSome = true := by
  cases m with
  | spec msg =>
      have hlive : msg.deleted = false := hm
      simp only [Entries.handle, hlive, Bool.false_eq_true, if_false]
      unfold specState
      split
      · rfl
      · exact he
  | probeResult msg => exact he
  | testResult msg => exact he
  | ping now msg => rfl

/-! ## Two replicas -/

section Replicas

variable {l l' : List Message} (hsame : SameStreams subscription l l')
  (hlive : ∀ m ∈ l, tombstone m = false)
include hsame hlive

theorem agree_foldl (e : Entries) :
    AgreeButLastPing (l.foldl Entries.handle e) (l'.foldl Entries.handle e) := by
  apply foldl_of_sameStreams (I := fun _ => True) agreeButLastPing_equivalence hsame
  · exact fun _ _ _ _ => agree_handle
  · exact fun _ _ _ _ => trivial
  · intro m hm m' hm' hne e _
    exact handle_comm agreeButLastPing_equivalence (fun _ => agree_spec_ping e) (hlive m hm)
      (hlive m' hm') hne
  · trivial

theorem foldl_eq_of_heartbeat {e : Entries} (he : e.heartbeat.isSome = true) :
    l.foldl Entries.handle e = l'.foldl Entries.handle e := by
  apply foldl_of_sameStreams (I := fun e => e.heartbeat.isSome = true) eq_equivalence hsame
  · exact fun m _ _ _ h => congrArg (Entries.handle · m) h
  · exact fun m hm _ he => heartbeat_isSome_handle he (hlive m hm)
  · intro m hm m' hm' hne e he
    exact handle_comm eq_equivalence (fun _ => handle_spec_ping he) (hlive m hm) (hlive m' hm') hne
  · exact he

end Replicas

/-- A message that creates the entry of a Heartbeat, or updates it. -/
def touchesHeartbeat : Message → Bool
  | .spec msg => decide (msg.kind = .heartbeat) && msg.heartbeat.isSome
  | .ping _ _ => true
  | _ => false

theorem heartbeat_handle_congr {e e' : Entries} (h : e.heartbeat = e'.heartbeat) (m : Message) :
    (e.handle m).heartbeat = (e'.handle m).heartbeat := by
  cases m with
  | spec msg =>
      cases hdeleted : msg.deleted <;> simp [Entries.handle, hdeleted, h]
  | probeResult msg => exact h
  | testResult msg => exact h
  | ping now msg => simp only [Entries.handle, h]

theorem heartbeat_handle_of_not_touches (e : Entries) {m : Message} (hm : tombstone m = false)
    (htouches : touchesHeartbeat m = false) : (e.handle m).heartbeat = e.heartbeat := by
  cases m with
  | spec msg =>
      have hlive : msg.deleted = false := hm
      simp only [Entries.handle, hlive, Bool.false_eq_true, if_false]
      unfold specState
      split
      · rename_i hkind hpayload
        simp [touchesHeartbeat, hkind, hpayload] at htouches
      · rfl
  | probeResult msg => rfl
  | testResult msg => rfl
  | ping now msg => cases htouches

theorem heartbeat_isSome_of_touches (e : Entries) {m : Message} (hm : tombstone m = false)
    (htouches : touchesHeartbeat m = true) : (e.handle m).heartbeat.isSome = true := by
  cases m with
  | spec msg =>
      have hlive : msg.deleted = false := hm
      simp only [touchesHeartbeat, Bool.and_eq_true, decide_eq_true_eq] at htouches
      obtain ⟨payload, hpayload⟩ := Option.isSome_iff_exists.mp htouches.2
      simp [Entries.handle, hlive, specState, htouches.1, hpayload]
  | probeResult msg => cases htouches
  | testResult msg => cases htouches
  | ping now msg => rfl

/-- The entry of a Heartbeat depends on the messages that touch it only. -/
theorem heartbeat_foldl_filter {l : List Message} (hlive : ∀ m ∈ l, tombstone m = false)
    {e e' : Entries} (he : e.heartbeat = e'.heartbeat) :
    (l.foldl Entries.handle e).heartbeat =
      ((l.filter touchesHeartbeat).foldl Entries.handle e').heartbeat := by
  induction l generalizing e e' with
  | nil => exact he
  | cons m l ih =>
      have hrest := fun m' hm' => hlive m' (List.mem_cons_of_mem m hm')
      cases htouches : touchesHeartbeat m with
      | true =>
          rw [List.filter_cons_of_pos htouches]
          exact ih hrest (heartbeat_handle_congr he m)
      | false =>
          rw [List.filter_cons_of_neg (by simp [htouches])]
          exact ih hrest ((heartbeat_handle_of_not_touches e
            (hlive m List.mem_cons_self) htouches).trans he)

theorem heartbeat_foldl_of_specs {t t' : List Message} (hsame : SameStreams subscription t t')
    (hlive : ∀ m ∈ t, tombstone m = false) (htouches : ∀ m ∈ t, touchesHeartbeat m = true)
    (hfirst : ∀ m ∈ t.head?, subscription m = .specs)
    (hfirst' : ∀ m ∈ t'.head?, subscription m = .specs) (e : Entries) :
    t.foldl Entries.handle e = t'.foldl Entries.handle e := by
  cases t with
  | nil => rw [hsame.nil_iff.mp rfl]
  | cons m t =>
      cases t' with
      | nil => cases hsame.nil_iff.mpr rfl
      | cons m' t' =>
          obtain ⟨rfl, hrest⟩ := hsame.of_cons ((hfirst m rfl).trans (hfirst' m' rfl).symm)
          exact foldl_eq_of_heartbeat hrest (fun m' hm' => hlive m' (List.mem_cons_of_mem m hm'))
            (heartbeat_isSome_of_touches e (hlive m List.mem_cons_self)
              (htouches m List.mem_cons_self))

/-- No ping of the identity comes before the spec that creates its entry. -/
def SpecFirst (key : CrKey) (messages : List Message) : Prop :=
  ∀ m ∈ (about key messages).find? touchesHeartbeat, subscription m = .specs

theorem entries_eq_of_specFirst {s : Store} {key : CrKey} {messages messages' : List Message}
    (hsame : SameStreams subscription messages messages')
    (hlive : ∀ m ∈ about key messages, tombstone m = false) (hfirst : SpecFirst key messages)
    (hfirst' : SpecFirst key messages') :
    entries (run s messages) key = entries (run s messages') key := by
  have hsame' : SameStreams subscription (about key messages) (about key messages') :=
    hsame.filter _
  have hlive' : ∀ m ∈ about key messages', tombstone m = false := fun m hm =>
    hlive m ((hsame'.mem_iff m).mpr hm)
  have hagree := agree_foldl hsame' hlive (entries s key)
  have htouching := heartbeat_foldl_of_specs (hsame'.filter touchesHeartbeat)
    (fun m hm => hlive m (List.mem_of_mem_filter hm)) (fun m hm => List.of_mem_filter hm)
    (by rw [List.head?_filter]; exact hfirst) (by rw [List.head?_filter]; exact hfirst')
    (entries s key)
  rw [entries_run, entries_run]
  apply Entries.ext hagree.probe hagree.test _ hagree.depends hagree.metricLabels
  rw [heartbeat_foldl_filter hlive rfl, heartbeat_foldl_filter hlive' rfl, htouching]

/-- The clock is read for the callback only. -/
def unclocked : Message → Message
  | .ping _ msg => .ping ⟨0⟩ msg
  | m => m

section Clock

variable (m : Message)

theorem handle_unclocked (s : Store) : handle s (unclocked m) = handle s m := by
  cases m <;> rfl

@[simp] theorem key_unclocked : (unclocked m).key = m.key := by
  cases m <;> rfl

@[simp] theorem subscription_unclocked : subscription (unclocked m) = subscription m := by
  cases m <;> rfl

@[simp] theorem tombstone_unclocked : tombstone (unclocked m) = tombstone m := by
  cases m <;> rfl

@[simp] theorem touchesHeartbeat_unclocked :
    touchesHeartbeat (unclocked m) = touchesHeartbeat m := by
  cases m <;> rfl

end Clock

theorem run_unclocked (s : Store) (messages : List Message) :
    run s (messages.map unclocked) = run s messages := by
  rw [run, List.foldl_map]
  simp only [handle_unclocked]
  rfl

theorem about_unclocked (key : CrKey) (messages : List Message) :
    about key (messages.map unclocked) = (about key messages).map unclocked := by
  simp [about, List.filter_map, Function.comp_def]

theorem specFirst_unclocked (key : CrKey) (messages : List Message) :
    SpecFirst key (messages.map unclocked) ↔ SpecFirst key messages := by
  have htouches : touchesHeartbeat ∘ unclocked = touchesHeartbeat :=
    funext touchesHeartbeat_unclocked
  rw [SpecFirst, about_unclocked, List.find?_map, htouches]
  simp [SpecFirst]

/-- Two replicas received the same four streams, in any two interleavings and at any times,
and none deleted the identity.  Then they agree about it, the last ping apart; they agree
about that too if the entry was there before, or if both received the spec that creates it
before the first ping. -/
theorem replicas_agree (s : Store) (key : CrKey) (messages messages' : List Message)
    (hsame : SameStreams subscription (messages.map unclocked) (messages'.map unclocked))
    (hlive : ∀ m ∈ messages, m.key = key → tombstone m = false) :
    AgreeButLastPing (entries (run s messages) key) (entries (run s messages') key) ∧
      ((s.heartbeats.lookup key).isSome = true ∨ SpecFirst key messages ∧ SpecFirst key messages' →
        entries (run s messages) key = entries (run s messages') key) := by
  have hlive' : ∀ m ∈ about key (messages.map unclocked), tombstone m = false := by
    simpa [about] using hlive
  have habout : SameStreams subscription (about key (messages.map unclocked))
      (about key (messages'.map unclocked)) := hsame.filter _
  rw [← run_unclocked s messages, ← run_unclocked s messages', ← specFirst_unclocked key messages,
    ← specFirst_unclocked key messages']
  refine ⟨?_, ?_⟩
  · rw [entries_run, entries_run]
    exact agree_foldl habout hlive' (entries s key)
  · rintro (hsome | ⟨hfirst, hfirst'⟩)
    · rw [entries_run, entries_run]
      exact foldl_eq_of_heartbeat habout hlive' hsome
    · exact entries_eq_of_specFirst hsame hlive' hfirst hfirst'

/-- Two interleavings of a spec with a seed and of two pings; the second replica receives the
newer spec of the stream last. -/
theorem replicas_agree_backup :
    entries (run Store.empty [backupSpec 100 "failed", backupSpec 0 "", backupPing 160 false])
        ⟨.heartbeat, backup⟩ =
      entries (run Store.empty [backupSpec 100 "failed", backupPing 160 false, backupSpec 0 ""])
        ⟨.heartbeat, backup⟩ := by
  refine (replicas_agree Store.empty ⟨.heartbeat, backup⟩ _ _ ?_ ?_).2 (.inr ⟨?_, ?_⟩)
  · intro t
    cases t <;> rfl
  · simp [backupSpec, backupPing, tombstone]
  · simp [SpecFirst, about, backupSpec, backupPing, touchesHeartbeat, subscription, Message.key,
      SpecUpdate.key, backup]
  · simp [SpecFirst, about, backupSpec, backupPing, touchesHeartbeat, subscription, Message.key,
      SpecUpdate.key, backup]

/-- With the ping first its entry has no seed, and the older ping stays. -/
example :
    (stored Store.empty backup [backupSpec 100 "failed", backupPing 90 false]).map
        (·.lastPingUnix) = some 100 ∧
      (stored Store.empty backup [backupPing 90 false, backupSpec 100 "failed"]).map
        (·.lastPingUnix) = some 90 := by
  decide +kernel

end SyntheticsOperator.Proofs.Replicas
