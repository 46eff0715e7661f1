import SyntheticsOperator.MetricsConsumer.Consumer
import SyntheticsOperator.Support.LatestWins

/-!
# The state of a Heartbeat after any history

The last-ping fields of a stored Heartbeat are a latest-wins register: it starts
at the seed of a spec that comes first, every ping is offered to it, and no
later spec touches it.  The other fields are those of the last spec.
-/

namespace SyntheticsOperator.Proofs.HeartbeatHistory

open SyntheticsOperator.Api
open SyntheticsOperator.Heartbeat
open SyntheticsOperator.Metrics
open SyntheticsOperator.MetricsConsumer
open SyntheticsOperator.Results (SpecUpdate HeartbeatPing HeartbeatSpecPayload)
open SyntheticsOperator.Support
open SyntheticsOperator.Support.Histories

/-! ## Histories of one Heartbeat -/

/-- A live spec with a payload, or a ping, of the Heartbeat `name`. -/
def Concerns (name : NamespacedName) : Message → Prop
  | .spec msg => msg.key = ⟨.heartbeat, name⟩ ∧ msg.deleted = false ∧ msg.heartbeat.isSome = true
  | .ping _ msg => msg.key = ⟨.heartbeat, name⟩
  | _ => False

def pingOf : Message → Option HeartbeatPing
  | .ping _ msg => some msg
  | _ => none

def specOf : Message → Option (SpecUpdate × HeartbeatSpecPayload)
  | .spec msg => msg.heartbeat.map (Prod.mk msg)
  | _ => none

/-- The pings of a history, in the order of their delivery. -/
def pings (messages : List Message) : List HeartbeatPing := messages.filterMap pingOf

/-- The payload of the first message, if that is a spec. -/
def firstSeed (messages : List Message) : Option HeartbeatSpecPayload :=
  (messages.head?.bind specOf).map Prod.snd

/-- The Unix time of a ping. -/
def received (msg : HeartbeatPing) : ℚ := msg.receivedAt.unix

/-- The outcome a first spec leaves: that of its seed, if the seed has a ping. -/
def seedFailed (messages : List Message) : Bool :=
  match firstSeed messages with
  | some seed =>
      decide (seed.lastPingUnix > 0) && decide (seed.lastResult = HeartbeatStatus.resultFailed)
  | none => false

/-- What is stored for the Heartbeat `name` after a history. -/
def stored (s : Store) (name : NamespacedName) (messages : List Message) :
    Option Lifecycle.State :=
  (run s messages).heartbeats.lookup ⟨.heartbeat, name⟩

/-- The three fields a ping sets. -/
structure LastPing where
  unix : ℚ
  failed : Bool
  exitCode : ℚ

def lastPing (state : Lifecycle.State) : LastPing :=
  ⟨state.lastPingUnix, state.reportedFailure, state.exitCode⟩

/-- The last-ping fields that a register of pings stands for. -/
def ofRegister (seedFailed : Bool) (r : Register ℚ HeartbeatPing) : LastPing :=
  match r.event with
  | some msg => ⟨r.time, msg.failed, msg.exitCode⟩
  | none => ⟨r.time, seedFailed, 0⟩

theorem ofRegister_unix (seedFailed : Bool) (r : Register ℚ HeartbeatPing) :
    (ofRegister seedFailed r).unix = r.time := by
  unfold ofRegister
  split <;> rfl

/-- The register of a history. -/
def pingRegister (messages : List Message) : Register ℚ HeartbeatPing :=
  Register.offers received (max 0 (((firstSeed messages).map (·.lastPingUnix)).getD 0 : ℤ))
    (pings messages)

/-- Period, grace and suspension as a spec sets them. -/
structure Contract where
  periodSeconds : ℚ
  graceSeconds : ℚ
  suspended : Bool

def contract (state : Lifecycle.State) : Contract :=
  ⟨state.periodSeconds, state.graceSeconds, state.suspended⟩

def ofSpec : Option (SpecUpdate × HeartbeatSpecPayload) → Contract
  | some (msg, payload) => ⟨payload.periodMs / 1000, payload.graceMs / 1000, msg.suspend⟩
  | none => ⟨0, 0, false⟩

/-! ## One message -/

theorem lastPing_recordPing {state : Lifecycle.State} {failed : Bool}
    {r : Register ℚ HeartbeatPing} (h : lastPing state = ofRegister failed r)
    (msg : HeartbeatPing) :
    lastPing (Lifecycle.recordPing state msg.failed msg.exitCode (received msg)) =
      ofRegister failed (r.offer received msg) := by
  have htime : state.lastPingUnix = r.time :=
    (congrArg LastPing.unix h).trans (ofRegister_unix failed r)
  unfold Lifecycle.recordPing Register.offer
  rw [htime]
  split
  · rfl
  · exact h

theorem contract_recordPing (state : Lifecycle.State) (failed : Bool) (exitCode : Int) (t : ℚ) :
    contract (Lifecycle.recordPing state failed exitCode t) = contract state := by
  unfold Lifecycle.recordPing
  split <;> rfl

theorem contract_applySpec (state : Lifecycle.State) (existing : Bool) (period grace : ℚ)
    (suspend : Bool) (seed : Lifecycle.Seed) :
    contract (Lifecycle.applySpec state existing period grace suspend seed) =
      ⟨period, grace, suspend⟩ := by
  unfold Lifecycle.applySpec
  split <;> rfl

theorem lastPing_applySpec_fresh (period grace : ℚ) (suspend : Bool) (seed : Lifecycle.Seed) :
    lastPing (Lifecycle.applySpec .zero false period grace suspend seed) =
      ofRegister (decide (seed.lastPingUnix > 0) && seed.failed)
        ⟨max 0 seed.lastPingUnix, none⟩ := by
  by_cases hseed : seed.lastPingUnix > 0
  · simp [Lifecycle.applySpec, hseed, lastPing, ofRegister, max_eq_right hseed.le,
      Lifecycle.State.zero]
  · simp [Lifecycle.applySpec, hseed, lastPing, ofRegister, max_eq_left (not_lt.mp hseed),
      Lifecycle.State.zero]

theorem stored_snoc_ping (s : Store) {name : NamespacedName} (messages : List Message)
    {now : Time} {msg : HeartbeatPing} (hmsg : Concerns name (.ping now msg)) :
    stored s name (messages ++ [.ping now msg]) =
      some (Lifecycle.recordPing ((stored s name messages).getD .zero) msg.failed msg.exitCode
        (received msg)) := by
  obtain rfl : (⟨msg.ns, msg.name⟩ : NamespacedName) = name := congrArg CrKey.name hmsg
  rw [stored, run_snoc]
  exact Finmap.lookup_insert _

theorem stored_snoc_spec (s : Store) {name : NamespacedName} (messages : List Message)
    {msg : SpecUpdate} {payload : HeartbeatSpecPayload} (hmsg : Concerns name (.spec msg))
    (hpayload : msg.heartbeat = some payload) :
    stored s name (messages ++ [.spec msg]) =
      some (Lifecycle.applySpec ((stored s name messages).getD .zero)
        (stored s name messages).isSome (payload.periodMs / 1000) (payload.graceMs / 1000)
        msg.suspend ⟨payload.lastPingUnix, payload.lastResult = HeartbeatStatus.resultFailed⟩) := by
  obtain rfl : (⟨msg.ns, msg.name⟩ : NamespacedName) = name := congrArg CrKey.name hmsg.1
  have hkind : msg.kind = .heartbeat := congrArg CrKey.kind hmsg.1
  rw [stored, run_snoc, handle, onSpec_heartbeats _ hkind hmsg.2.1 hpayload]
  exact Finmap.lookup_insert _

theorem firstSeed_snoc {messages : List Message} {m : Message}
    (h : messages ≠ [] ∨ specOf m = none) : firstSeed (messages ++ [m]) = firstSeed messages := by
  cases messages with
  | nil => simp [firstSeed, h.resolve_left (by simp)]
  | cons m' messages => rfl

/-! ## Every history -/

/-- The stored state is that of the history's register and of its last spec. -/
structure Tracks (messages : List Message) (state : Lifecycle.State) : Prop where
  lastPing : lastPing state = ofRegister (seedFailed messages) (pingRegister messages)
  contract : contract state = ofSpec (lastSome specOf messages)

theorem Tracks.snoc_ping {messages : List Message} {state : Lifecycle.State}
    (h : Tracks messages state) (now : Time) (msg : HeartbeatPing) :
    Tracks (messages ++ [.ping now msg])
      (Lifecycle.recordPing state msg.failed msg.exitCode (received msg)) := by
  have hseed : firstSeed (messages ++ [.ping now msg]) = firstSeed messages :=
    firstSeed_snoc (.inr rfl)
  have hpings : pings (messages ++ [.ping now msg]) = pings messages ++ [msg] := by
    simp [pings, pingOf]
  refine ⟨?_, ?_⟩
  · rw [seedFailed, pingRegister, hseed, hpings, Register.offers_snoc]
    exact lastPing_recordPing h.lastPing msg
  · rw [contract_recordPing, lastSome_snoc]
    exact h.contract

theorem Tracks.snoc_spec {messages : List Message} {state : Lifecycle.State}
    (h : Tracks messages state) {msg : SpecUpdate} {payload : HeartbeatSpecPayload}
    (hpayload : msg.heartbeat = some payload) {existing : Bool}
    (hexisting : existing = true ↔ messages ≠ []) (hfresh : existing = false → state = .zero) :
    Tracks (messages ++ [.spec msg])
      (Lifecycle.applySpec state existing (payload.periodMs / 1000) (payload.graceMs / 1000)
        msg.suspend ⟨payload.lastPingUnix, payload.lastResult = HeartbeatStatus.resultFailed⟩) := by
  have hspec : specOf (.spec msg) = some (msg, payload) := by
    simp [specOf, hpayload]
  have hpings : pings (messages ++ [.spec msg]) = pings messages := by
    simp [pings, pingOf]
  refine ⟨?_, ?_⟩
  · cases existing with
    | true =>
        have hseed : firstSeed (messages ++ [.spec msg]) = firstSeed messages :=
          firstSeed_snoc (.inl (hexisting.mp rfl))
        rw [seedFailed, pingRegister, hseed, hpings]
        exact h.lastPing
    | false =>
        -- the first message, whose seed applies
        have hnil : messages = [] := by
          by_contra hne
          exact Bool.false_ne_true (hexisting.mpr hne)
        subst hnil
        rw [hfresh rfl, lastPing_applySpec_fresh, seedFailed, pingRegister, hpings]
        simp [firstSeed, hspec, pings, Register.offers]
  · rw [contract_applySpec, lastSome_snoc, hspec]
    rfl

theorem tracks_stored {s : Store} {name : NamespacedName}
    (hs : s.heartbeats.lookup ⟨.heartbeat, name⟩ = none) {messages : List Message}
    (hmessages : ∀ m ∈ messages, Concerns name m) :
    ((stored s name messages).isSome = true ↔ messages ≠ []) ∧
      Tracks messages ((stored s name messages).getD .zero) := by
  induction messages using List.reverseRecOn with
  | nil =>
      have hnone : stored s name [] = none := hs
      rw [hnone]
      exact ⟨by simp, rfl, rfl⟩
  | append_singleton messages m ih =>
      obtain ⟨hsome, htracks⟩ := ih fun m' hm' => hmessages m' (by simp [hm'])
      have hm := hmessages m (by simp)
      cases m with
      | spec msg =>
          obtain ⟨payload, hpayload⟩ := Option.isSome_iff_exists.mp hm.2.2
          rw [stored_snoc_spec s messages hm hpayload]
          refine ⟨by simp, htracks.snoc_spec hpayload hsome fun hisNone => ?_⟩
          have hnone : stored s name messages = none := by simpa using hisNone
          rw [hnone]
          rfl
      | ping now msg =>
          rw [stored_snoc_ping s messages hm]
          exact ⟨by simp, htracks.snoc_ping now msg⟩
      | probeResult msg => exact hm.elim
      | testResult msg => exact hm.elim

/-- What a history says about the stored state, field by field. -/
structure Summary (messages : List Message) (state : Lifecycle.State) : Prop where
  lastPingUnix : IsGreatest
    {t : ℚ | t = 0 ∨ (∃ msg ∈ pings messages, t = received msg) ∨
      ∃ seed ∈ firstSeed messages, t = seed.lastPingUnix} state.lastPingUnix
  outcome :
    match lastSome (Register.at? received state.lastPingUnix) (pings messages) with
    | some msg => state.reportedFailure = msg.failed ∧ state.exitCode = msg.exitCode
    | none => state.reportedFailure = seedFailed messages ∧ state.exitCode = 0
  contract :
    match lastSome specOf messages with
    | some (msg, payload) => state.periodSeconds = payload.periodMs / 1000 ∧
        state.graceSeconds = payload.graceMs / 1000 ∧ state.suspended = msg.suspend
    | none => state.periodSeconds = 0 ∧ state.graceSeconds = 0 ∧ state.suspended = false

theorem Tracks.time {messages : List Message} {state : Lifecycle.State}
    (h : Tracks messages state) : state.lastPingUnix = (pingRegister messages).time :=
  (congrArg LastPing.unix h.lastPing).trans (ofRegister_unix _ _)

theorem isGreatest_pingRegister (messages : List Message) :
    IsGreatest
      {t : ℚ | t = 0 ∨ (∃ msg ∈ pings messages, t = received msg) ∨
        ∃ seed ∈ firstSeed messages, t = seed.lastPingUnix} (pingRegister messages).time := by
  obtain ⟨hmem, hbound⟩ := Register.isGreatest_offers received
    (max 0 (((firstSeed messages).map (·.lastPingUnix)).getD 0 : ℤ)) (pings messages)
  refine ⟨?_, ?_⟩
  · rcases hmem with hstart | hping
    · -- the register never left its start, which is 0 or the seed
      rcases hseed : firstSeed messages with _ | seed
      · exact .inl (by rw [pingRegister, hstart, hseed]; simp)
      · rw [pingRegister, hstart, hseed]
        rcases max_choice (0 : ℚ) (seed.lastPingUnix : ℤ) with hmax | hmax
        · exact .inl (by simpa using hmax)
        · exact .inr (.inr ⟨seed, rfl, by simpa using hmax⟩)
    · exact .inr (.inl hping)
  · rintro t (rfl | hping | ⟨seed, hseed, rfl⟩)
    · exact (le_max_left _ _).trans (hbound (.inl rfl))
    · exact hbound (.inr hping)
    · refine le_trans ?_ (hbound (.inl rfl))
      rw [Option.mem_def.mp hseed]
      exact le_max_right _ _

theorem Tracks.summary {messages : List Message} {state : Lifecycle.State}
    (h : Tracks messages state) : Summary messages state := by
  refine ⟨?_, ?_, ?_⟩
  · rw [h.time]
    exact isGreatest_pingRegister messages
  · rw [h.time, pingRegister, ← Register.event_offers, ← pingRegister]
    have hlast := h.lastPing
    unfold ofRegister at hlast
    split at hlast <;>
      exact ⟨congrArg LastPing.failed hlast, congrArg LastPing.exitCode hlast⟩
  · have hcontract := h.contract
    unfold ofSpec at hcontract
    split at hcontract <;>
      exact ⟨congrArg Contract.periodSeconds hcontract, congrArg Contract.graceSeconds hcontract,
        congrArg Contract.suspended hcontract⟩

/-- For every history of a Heartbeat that starts without stored state: the state
is the one its summary describes, and the last-ping fields are the same for any
other history with the same first seed and the same pings, in any order and
number, if no two pings share a time. -/
theorem heartbeat_after_history (s : Store) (name : NamespacedName) (messages : List Message)
    (hs : s.heartbeats.lookup ⟨.heartbeat, name⟩ = none)
    (hmessages : ∀ m ∈ messages, Concerns name m) :
    (messages ≠ [] → (stored s name messages).isSome = true) ∧
      Summary messages ((stored s name messages).getD .zero) ∧
      ∀ messages', (∀ m ∈ messages', Concerns name m) → firstSeed messages' = firstSeed messages →
        (∀ msg, msg ∈ pings messages' ↔ msg ∈ pings messages) →
        (∀ msg ∈ pings messages, ∀ msg' ∈ pings messages, received msg = received msg' →
          msg = msg') →
        lastPing ((stored s name messages').getD .zero) =
          lastPing ((stored s name messages).getD .zero) := by
  obtain ⟨hsome, htracks⟩ := tracks_stored hs hmessages
  refine ⟨hsome.mpr, htracks.summary, fun messages' hmessages' hseed hpings hdistinct => ?_⟩
  obtain ⟨_, htracks'⟩ := tracks_stored hs hmessages'
  rw [htracks.lastPing, htracks'.lastPing, seedFailed, seedFailed, pingRegister, pingRegister,
    hseed, Register.offers_congr received _ (fun msg => (hpings msg).symm) hdistinct]

/-- The Heartbeat `backup` with a period of one minute. -/
def backup : NamespacedName := ⟨"default", "backup"⟩

/-- Its spec, with a seed. -/
def backupSpec (lastPingUnix : Int) (lastResult : String) : Message :=
  .spec { kind := .heartbeat, name := "backup", ns := "default"
          heartbeat := some ⟨[], 60000, 0, lastPingUnix, lastResult⟩ }

/-- A ping of `backup` at a second after the epoch. -/
def backupPing (second : Int) (failed : Bool) : Message :=
  .ping ⟨0⟩ ⟨"backup", "default", ⟨second * 1000000000⟩, failed, 0, []⟩

/-- A seed, a ping, and an older ping. -/
theorem heartbeat_after_three_messages :
    Summary [backupSpec 100 "failed", backupPing 160 false, backupPing 130 true]
      ((stored Store.empty backup
        [backupSpec 100 "failed", backupPing 160 false, backupPing 130 true]).getD .zero) := by
  refine (heartbeat_after_history Store.empty backup
    [backupSpec 100 "failed", backupPing 160 false, backupPing 130 true] rfl ?_).2.1
  intro m hm
  simp only [List.mem_cons, List.not_mem_nil, or_false] at hm
  rcases hm with rfl | rfl | rfl
  · exact ⟨rfl, rfl, rfl⟩
  · rfl
  · rfl

/-- A first spec whose seed says `failed` but has no ping stores no failure. -/
theorem seed_without_ping_is_ignored :
    pings [backupSpec 0 "failed"] = [] ∧
      (firstSeed [backupSpec 0 "failed"]).map (·.lastResult) = some HeartbeatStatus.resultFailed ∧
      (stored Store.empty backup [backupSpec 0 "failed"]).map (·.reportedFailure) =
        some false :=
  ⟨rfl, rfl, by decide⟩

end SyntheticsOperator.Proofs.HeartbeatHistory
