import Mathlib.Tactic.Linarith
import Mathlib.Tactic.Ring
import SyntheticsOperator.Controllers.Specs
import SyntheticsOperator.Proofs.HeartbeatHistory
import SyntheticsOperator.Proofs.PingWriter

/-!
# A metrics replica that starts anew

The metrics store is in memory.  A replica that starts anew takes the last ping of a
Heartbeat from the status, which the controller replays with the spec and which the ping
writer throttles.  Against a replica that ran all along:

* the time it starts from is at most one write interval behind, and never ahead;
* the outcome is the same;
* so it reports `missed` at the latest when the other one does, and otherwise the same until
  one write interval before the deadline;
* the next ping makes the two states equal.
-/

namespace SyntheticsOperator.Proofs.Reseed

open SyntheticsOperator.Api
open SyntheticsOperator.Controllers (heartbeatSpecUpdate PingEvent PingWorld pingResult pingTarget
  persistPing)
open SyntheticsOperator.Heartbeat
open SyntheticsOperator.Metrics (Store)
open SyntheticsOperator.MetricsConsumer
open SyntheticsOperator.Proofs.HeartbeatHistory
open SyntheticsOperator.Proofs.PingWriter
open SyntheticsOperator.Results (SpecUpdate HeartbeatPing HeartbeatSpecPayload)
open SyntheticsOperator.Support

/-! ## What the status has after the newest ping -/

/-- The ping, if it is one of the Heartbeat. -/
def pingFor (name : NamespacedName) : PingEvent → Option HeartbeatPing
  | .ping ping _ => if pingTarget ping = name then some ping else none
  | .restart => none

/-- The pings of the Heartbeat, in the order in which the writer handles them. -/
def pingsFor (name : NamespacedName) (events : List PingEvent) : List HeartbeatPing :=
  events.filterMap (pingFor name)

theorem receivedOf_eq (name : NamespacedName) (event : PingEvent) :
    receivedOf name event = (pingFor name event).map (·.receivedAt) := by
  cases event with
  | restart => rfl
  | ping ping patched =>
      by_cases h : pingTarget ping = name <;> simp [receivedOf, pingFor, h]

theorem filterMap_receivedOf (name : NamespacedName) (events : List PingEvent) :
    events.filterMap (receivedOf name) = (pingsFor name events).map (·.receivedAt) := by
  rw [pingsFor, List.map_filterMap]
  exact List.filterMap_congr fun event _ => receivedOf_eq name event

/-- The status has the outcome of the ping, and the second of a time less than `interval`
before it. -/
structure Persists (ping : HeartbeatPing) (interval : Duration) (status : HeartbeatStatus) :
    Prop where
  outcome : status.lastResult = pingResult ping
  time : ∃ last : Time, status.lastPingTime = some last.wholeSeconds ∧ 0 < last.unix ∧
    last.nanos ≤ ping.receivedAt.nanos ∧ ping.receivedAt.nanos - last.nanos < interval

section Status

variable {world : PingWorld} {name : NamespacedName} {beat : Heartbeat}

/-- Only the status of a stored Heartbeat changes. -/
theorem handle_status (hbeat : ∃ status, world.beats.lookup name = some { beat with status })
    (event : PingEvent) :
    ∃ status, (world.handle event).beats.lookup name = some { beat with status } := by
  cases event with
  | restart => exact hbeat
  | ping ping patched =>
      obtain ⟨status, hstatus⟩ := hbeat
      rcases handle_ping_cases world ping patched with h | ⟨-, stored, hstored, h⟩ | ⟨-, h⟩
      · exact ⟨status, by rw [h, hstatus]⟩
      · by_cases heq : name = pingTarget ping
        · subst heq
          obtain rfl := Option.some.inj (hstored.symm.trans hstatus)
          refine ⟨{ status with
            lastPingTime := some (world.stored ping.receivedAt)
            lastResult := pingResult ping }, ?_⟩
          rw [h]
          exact Finmap.lookup_insert _
        · refine ⟨status, ?_⟩
          rw [h]
          exact (Finmap.lookup_insert_of_ne _ heq).trans hstatus
      · exact ⟨status, by rw [h, hstatus]⟩

theorem run_status (hbeat : world.beats.lookup name = some beat) (events : List PingEvent) :
    ∃ status, (world.run events).beats.lookup name = some { beat with status } := by
  induction events using List.reverseRecOn with
  | nil => exact ⟨beat.status, hbeat⟩
  | append_singleton events event ih =>
      rw [PingWorld.run_snoc]
      exact handle_status ih event

/-- An event that is no ping of the Heartbeat leaves it as it is stored. -/
theorem run_lookup_of_other {events : List PingEvent}
    (hevents : pingsFor name events = []) :
    (world.run events).beats.lookup name = world.beats.lookup name := by
  induction events using List.reverseRecOn with
  | nil => rfl
  | append_singleton events event ih =>
      rw [PingWorld.run_snoc]
      rw [pingsFor, List.filterMap_append, List.append_eq_nil_iff] at hevents
      refine Eq.trans ?_ (ih hevents.1)
      cases event with
      | restart => rfl
      | ping ping patched =>
          have hother : pingTarget ping ≠ name := by
            simpa [pingFor] using hevents.2
          exact (handle_other hother).1

/-- A ping that is held back has a throttle entry, and the entry is the persisted time. -/
theorem persists_handle (hseconds : world.stored = Time.wholeSeconds)
    (hfresh : world.writer.lastWrite = ∅)
    (hbeat : world.beats.lookup name = some beat) (hperiod : beat.spec.period ≥ 1000000000)
    {before : List PingEvent} {ping : HeartbeatPing} {patched : Bool}
    (htarget : pingTarget ping = name) (horder : InOrder name (before ++ [.ping ping patched]))
    (hepoch : ∀ p ∈ pingsFor name (before ++ [.ping ping patched]), 0 < p.receivedAt.unix)
    (hpatch : ¬ PatchFails (world.run before) ping patched) :
    ∃ status, ((world.run before).handle (.ping ping patched)).beats.lookup name =
        some { beat with status } ∧
      Persists ping (Lifecycle.writeInterval beat.spec.period world.writer.minWriteInterval)
        status := by
  subst htarget
  obtain ⟨status, hstatus⟩ := run_status hbeat before
  have hprecision := (run_configuration world before).2.trans hseconds
  by_cases hheld : Held (world.run before).writer { beat with status } ping
  · obtain ⟨entry, hentry, hresult, hsub⟩ := id hheld
    have hlast := run_mirrors hfresh (pingTarget ping) before entry hentry _ hstatus
    have hmem := run_entry_received hfresh (pingTarget ping) before hentry
    rw [throttleFor_run (show Heartbeat.spec { beat with status } = beat.spec from rfl)] at hsub
    rw [hprecision] at hlast
    rw [handle_held hstatus hheld]
    refine ⟨status, hstatus, hresult.symm, entry, hlast, ?_, ?_, hsub⟩
    · rw [filterMap_receivedOf] at hmem
      obtain ⟨p, hp, rfl⟩ := List.mem_map.mp hmem
      exact hepoch p (by simp [pingsFor] at hp ⊢; exact .inl hp)
    · exact entry_le_next hfresh horder hentry
  · have hpatched : patched = true := by
      by_contra hfailed
      refine hpatch ⟨?_, by simpa using hfailed⟩
      rw [PingWorld.onPing, onPing_failed (get_of_lookup hstatus) hheld (by simpa using hfailed)]
      exact Option.some_ne_none _
    subst hpatched
    rw [handle_written hstatus hheld]
    refine ⟨{ status with
        lastPingTime := some ((world.run before).stored ping.receivedAt)
        lastResult := pingResult ping },
      Finmap.lookup_insert _, rfl, ping.receivedAt, by rw [hprecision], ?_, Int.le_refl _, ?_⟩
    · exact hepoch ping (by simp [pingsFor, pingFor])
    · have hpos := writeInterval_pos world.writer.minWriteInterval hperiod
      omega

end Status

/-! ## Two replicas -/

/-- What a replica processes about a Heartbeat whose spec does not change: its spec, with any
status and token, and pings. -/
def Streams (beat : Heartbeat) : Message → Prop
  | .spec msg => ∃ status token, msg = heartbeatSpecUpdate { beat with status } token
  | .ping _ msg => pingTarget msg = ⟨beat.ns, beat.name⟩
  | _ => False

theorem Streams.concerns {beat : Heartbeat} {m : Message} (h : Streams beat m) :
    Concerns ⟨beat.ns, beat.name⟩ m := by
  cases m with
  | spec msg =>
      obtain ⟨status, token, rfl⟩ := h
      exact ⟨rfl, rfl, rfl⟩
  | ping now msg => exact congrArg (CrKey.mk .heartbeat) h
  | probeResult msg => exact h
  | testResult msg => exact h

/-- A history that starts with a spec. -/
def history (beat : Heartbeat) (status : HeartbeatStatus) (token : GoString)
    (messages : List Message) : List Message :=
  .spec (heartbeatSpecUpdate { beat with status } token) :: messages

section History

variable {beat : Heartbeat} (status : HeartbeatStatus) (token : GoString)
  {messages : List Message} {s : Store}
  (hs : s.heartbeats.lookup ⟨.heartbeat, ⟨beat.ns, beat.name⟩⟩ = none)
  (hmessages : ∀ m ∈ messages, Streams beat m)
include hs hmessages

theorem tracks_history :
    ∃ state, stored s ⟨beat.ns, beat.name⟩ (history beat status token messages) = some state ∧
      Tracks (history beat status token messages) state := by
  have hall : ∀ m ∈ history beat status token messages, Concerns ⟨beat.ns, beat.name⟩ m := by
    intro m hm
    rcases List.mem_cons.mp hm with rfl | hm
    · exact ⟨rfl, rfl, rfl⟩
    · exact (hmessages m hm).concerns
  obtain ⟨hsome, htracks⟩ := tracks_stored hs hall
  obtain ⟨state, hstate⟩ := Option.isSome_iff_exists.mp (hsome.mpr (List.cons_ne_nil _ _))
  rw [hstate] at htracks
  exact ⟨state, hstate, htracks⟩

omit hs in
variable {status token} in
theorem contract_history {state : Lifecycle.State}
    (h : Tracks (history beat status token messages) state) :
    contract state =
      ⟨beat.spec.period.milliseconds / 1000, beat.spec.grace.milliseconds / 1000,
        beat.spec.suspend⟩ := by
  rw [h.contract]
  obtain ⟨⟨msg, payload⟩, hlast⟩ := Histories.exists_lastSome_eq_some
    (f := HeartbeatHistory.specOf) (h := history beat status token messages) List.mem_cons_self rfl
  obtain ⟨m, hm, hspec⟩ := Histories.exists_of_lastSome_eq_some hlast
  rw [hlast]
  have hstream : Streams beat m := by
    rcases List.mem_cons.mp hm with rfl | hm
    · exact ⟨status, token, rfl⟩
    · exact hmessages m hm
  cases m with
  | spec msg' =>
      obtain ⟨status', token', rfl⟩ := hstream
      cases hspec
      rfl
  | _ => cases hspec

end History

section LastPing

variable {beat : Heartbeat} {status : HeartbeatStatus} {token : GoString}
  {messages : List Message} {state : Lifecycle.State}

/-- The last ping that the status replays. -/
def seedUnix (status : HeartbeatStatus) : Int := (status.lastPingTime.map Time.unix).getD 0

theorem seedUnix_eq {last : Time} (h : status.lastPingTime = some last) :
    seedUnix status = last.unix := by
  simp [seedUnix, h]

theorem max_seedUnix_le {t : Time} (ht : 0 < t.unix)
    (hstatus : ∀ last, status.lastPingTime = some last → last.nanos ≤ t.nanos) :
    max 0 (seedUnix status) ≤ t.unix := by
  refine max_le ht.le ?_
  cases hlast : status.lastPingTime with
  | none => simpa [seedUnix, hlast] using ht.le
  | some last =>
      rw [seedUnix_eq hlast]
      exact Time.unix_mono (hstatus last hlast)

/-- The fields that a ping sets. -/
def pinged (ping : HeartbeatPing) : LastPing :=
  ⟨ping.receivedAt.unix, ping.failed, ping.exitCode⟩

theorem lastPing_of_pings (h : Tracks (history beat status token messages) state)
    {older : List HeartbeatPing} {ping : HeartbeatPing} (hpings : pings messages = older ++ [ping])
    (hseed : max 0 (seedUnix status) ≤ ping.receivedAt.unix)
    (holder : ∀ p ∈ older, p.receivedAt.unix ≤ ping.receivedAt.unix) :
    lastPing state = pinged ping := by
  have hregister : pingRegister (history beat status token messages) =
      ⟨received ping, some ping⟩ := by
    have hall : pings (history beat status token messages) = older ++ [ping] := hpings
    rw [pingRegister, hall]
    apply Register.offers_snoc_of_le
    · have hcast : ((max 0 (seedUnix status) : ℤ) : ℚ) ≤ (ping.receivedAt.unix : ℤ) :=
        Int.cast_le.mpr hseed
      rw [Int.cast_max, Int.cast_zero] at hcast
      exact hcast
    · exact fun p hp => Int.cast_le.mpr (holder p hp)
  rw [h.lastPing, hregister]
  rfl

theorem lastPing_of_no_ping (h : Tracks (history beat status token messages) state)
    (hpings : pings messages = []) (hseed : 0 < seedUnix status) :
    lastPing state =
      ⟨seedUnix status, decide (status.lastResult = HeartbeatStatus.resultFailed), 0⟩ := by
  have hall : pings (history beat status token messages) = [] := hpings
  have hfirst : firstSeed (history beat status token messages) =
      (heartbeatSpecUpdate { beat with status } token).heartbeat := rfl
  have hcast : (0 : ℚ) < (seedUnix status : ℤ) := Int.cast_pos.mpr hseed
  rw [h.lastPing, pingRegister, hall, seedFailed, hfirst]
  simp only [heartbeatSpecUpdate, Option.map_some, Option.getD_some, Register.offers,
    List.foldl_nil, ofRegister]
  simp only [seedUnix] at hseed hcast
  simp [seedUnix, hseed, max_eq_right hcast.le]

end LastPing

theorem state_eq {state state' : Lifecycle.State} (hping : lastPing state = lastPing state')
    (hcontract : contract state = contract state') : state = state' := by
  cases state
  cases state'
  cases hping
  cases hcontract
  rfl

/-- How the state of the replica that started anew relates to that of the other one. -/
structure Reseeded (interval : Duration) (live fresh : Lifecycle.State) : Prop where
  contract : contract fresh = contract live
  outcome : fresh.reportedFailure = live.reportedFailure
  pinged : 0 < fresh.lastPingUnix
  notAhead : fresh.lastPingUnix ≤ live.lastPingUnix
  behind : live.lastPingUnix < fresh.lastPingUnix + interval / 1000000000 + 1

section Evaluate

variable {interval : Duration} {live fresh : Lifecycle.State} (h : Reseeded interval live fresh)
include h

theorem Reseeded.deadline :
    live.deadline - fresh.deadline = live.lastPingUnix - fresh.lastPingUnix := by
  have hperiod : fresh.periodSeconds = live.periodSeconds :=
    congrArg Contract.periodSeconds h.contract
  have hgrace : fresh.graceSeconds = live.graceSeconds := congrArg Contract.graceSeconds h.contract
  simp only [Lifecycle.State.deadline, hperiod, hgrace]
  ring

theorem Reseeded.missed {now : Time} (hmissed : live.evaluate now = .missed) :
    fresh.evaluate now = .missed := by
  have hdeadline := h.deadline
  have hnotAhead := h.notAhead
  rw [Lifecycle.State.evaluate_eq_missed_iff] at hmissed ⊢
  exact ⟨h.pinged, by linarith [hmissed.2]⟩

/-- One write interval before the deadline, and a second for the rounding, they still agree. -/
theorem Reseeded.evaluate {now : Time}
    (hnow : (now.unix : ℚ) ≤ live.deadline - interval / 1000000000 - 1) :
    fresh.evaluate now = live.evaluate now := by
  have hdeadline := h.deadline
  have hbehind := h.behind
  have hfresh : (now.unix : ℚ) ≤ fresh.deadline := by linarith
  have hnotAhead := h.notAhead
  have hlive : (now.unix : ℚ) ≤ live.deadline := by linarith
  have hpinged : 0 < live.lastPingUnix := h.pinged.trans_le h.notAhead
  unfold Lifecycle.State.evaluate
  rw [if_neg (not_le.mpr h.pinged), if_neg (not_le.mpr hpinged), if_neg (not_lt.mpr hfresh),
    if_neg (not_lt.mpr hlive), h.outcome]

end Evaluate

/-! ## A restart -/

/-- The newest ping of a Heartbeat that the writer handled, in order after the others, and
without a failed `Patch`.  Other events came before and after it, restarts included. -/
structure Newest (world : PingWorld) (beat : Heartbeat) (before : List PingEvent)
    (ping : HeartbeatPing) (patched : Bool) (after : List PingEvent) : Prop where
  seconds : world.stored = Time.wholeSeconds
  unwritten : world.writer.lastWrite = ∅
  stored : world.beats.lookup ⟨beat.ns, beat.name⟩ = some beat
  admitted : beat.spec.period ≥ 1000000000
  target : pingTarget ping = ⟨beat.ns, beat.name⟩
  written : ¬ PatchFails (world.run before) ping patched
  newest : pingsFor ⟨beat.ns, beat.name⟩ after = []
  order : InOrder ⟨beat.ns, beat.name⟩ (before ++ [.ping ping patched])
  epoch : ∀ p ∈ pingsFor ⟨beat.ns, beat.name⟩ (before ++ [.ping ping patched]),
    0 < p.receivedAt.unix

section Restart

variable {world : PingWorld} {beat : Heartbeat} {before after : List PingEvent}
  {ping : HeartbeatPing} {patched : Bool} (h : Newest world beat before ping patched after)
include h

theorem Newest.persists :
    ∃ status, (world.run (before ++ [.ping ping patched] ++ after)).beats.lookup
        ⟨beat.ns, beat.name⟩ = some { beat with status } ∧
      Persists ping (Lifecycle.writeInterval beat.spec.period world.writer.minWriteInterval)
        status := by
  have hrun : world.run (before ++ [.ping ping patched] ++ after) =
      ((world.run before).handle (.ping ping patched)).run after := by
    simp [PingWorld.run]
  rw [hrun, run_lookup_of_other h.newest]
  exact persists_handle h.seconds h.unwritten h.stored h.admitted h.target h.order h.epoch h.written

theorem Newest.pingsFor_eq :
    ∃ older, pingsFor ⟨beat.ns, beat.name⟩ (before ++ [.ping ping patched]) = older ++ [ping] ∧
      ∀ p ∈ older, p.receivedAt.unix ≤ ping.receivedAt.unix := by
  have hsplit : pingsFor ⟨beat.ns, beat.name⟩ (before ++ [.ping ping patched]) =
      pingsFor ⟨beat.ns, beat.name⟩ before ++ [ping] := by
    simp [pingsFor, pingFor, h.target]
  have horder := h.order
  rw [InOrder, filterMap_receivedOf, hsplit, List.map_append, List.pairwise_append] at horder
  refine ⟨_, hsplit, fun p hp => Time.unix_mono ?_⟩
  exact horder.2.2 _ (List.mem_map_of_mem hp) ping.receivedAt (by simp)

end Restart

theorem pingResult_eq_failed (ping : HeartbeatPing) :
    decide (pingResult ping = HeartbeatStatus.resultFailed) = ping.failed := by
  cases hfailed : ping.failed <;>
    simp [pingResult, hfailed, HeartbeatStatus.resultFailed, HeartbeatStatus.resultOK]

/-- Before the next ping, the one stands at the newest ping and the other at the status. -/
theorem Persists.reseeded {ping : HeartbeatPing} {interval : Duration}
    {status : HeartbeatStatus} {live fresh : Lifecycle.State} (h : Persists ping interval status)
    (hcontract : contract fresh = contract live)
    (hlive : lastPing live = pinged ping)
    (hfresh : lastPing fresh =
      ⟨seedUnix status, decide (status.lastResult = HeartbeatStatus.resultFailed), 0⟩) :
    Reseeded interval live fresh := by
  obtain ⟨last, hlast, hpos, hle, hinterval⟩ := h.time
  have hlivePing : live.lastPingUnix = ping.receivedAt.unix := congrArg LastPing.unix hlive
  have hfreshPing : fresh.lastPingUnix = last.unix := by
    rw [← last.unix_wholeSeconds, ← seedUnix_eq hlast]
    exact congrArg LastPing.unix hfresh
  refine ⟨hcontract, ?_, ?_, ?_, ?_⟩
  · have hfailed := congrArg LastPing.failed hfresh
    rw [h.outcome, pingResult_eq_failed] at hfailed
    exact hfailed.trans (congrArg LastPing.failed hlive).symm
  · rw [hfreshPing]
    exact Int.cast_pos.mpr hpos
  · rw [hfreshPing, hlivePing]
    exact Int.cast_le.mpr (Time.unix_mono hle)
  · have hseconds : ping.receivedAt.unix * 1000000000 <
        last.unix * 1000000000 + interval + 1000000000 := by
      simp only [Time.unix]
      omega
    have hcast : (ping.receivedAt.unix * 1000000000 : ℚ) <
        last.unix * 1000000000 + interval + 1000000000 := by exact_mod_cast hseconds
    rw [hfreshPing, hlivePing]
    linarith

/-- A reseeded replica never reports `missed` later than the other one, and until one write
interval before the deadline, and a second for the rounding, they report the same. -/
def ReportsAlike (interval : Duration) (live fresh : Lifecycle.State) : Prop :=
  ∀ now : Time, (live.evaluate now = .missed → fresh.evaluate now = .missed) ∧
    ((now.unix : ℚ) ≤ live.deadline - interval / 1000000000 - 1 →
      fresh.evaluate now = live.evaluate now)

end SyntheticsOperator.Proofs.Reseed
