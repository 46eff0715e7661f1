import SyntheticsOperator.Controllers.PingWriter
import SyntheticsOperator.Support.Histories
import SyntheticsOperator.Support.MapLookup

/-!
# What the status remembers of the pings

The throttle entry of a Heartbeat is the time of the last ping in its status, as long
as there is one: a failed write and a restart take the entry away.  With pings in
order this bounds how old the status can be.  A ping that is older than the status is
written all the same when its outcome differs or the writer has no entry.
-/

namespace SyntheticsOperator.Proofs.PingWriter

open SyntheticsOperator.Api
open SyntheticsOperator.Controllers
open SyntheticsOperator.Heartbeat
open SyntheticsOperator.Results (HeartbeatPing)
open SyntheticsOperator.Support
open SyntheticsOperator.Support.Histories

/-! ## The throttle -/

/-- `writeInterval` over the integers that durations are. -/
theorem writeInterval_eq (period override : Int) :
    Lifecycle.writeInterval period override =
      (if 0 < override then override else if 0 < period then period / 4 else 15000000000 : Int) :=
  rfl

theorem writeInterval_nonneg (period override : Int) :
    (0 : Int) ≤ Lifecycle.writeInterval period override := by
  rw [writeInterval_eq]
  split
  · omega
  · split <;> omega

/-- A quarter of an admitted period is not zero. -/
theorem writeInterval_pos {period : Int} (override : Int) (hperiod : 1000000000 ≤ period) :
    (0 : Int) < Lifecycle.writeInterval period override := by
  rw [writeInterval_eq]
  split
  · omega
  · split <;> omega

/-- The throttle holds a ping back: it has an entry, the outcome is the persisted one
and the interval is not over. -/
def Held (w : Controllers.PingWriter) (beat : Heartbeat) (ping : HeartbeatPing) : Prop :=
  ∃ previous, w.lastWrite.lookup (pingTarget ping) = some previous ∧
    pingResult ping = beat.status.lastResult ∧
    ping.receivedAt.sub previous < w.throttleFor beat

theorem shouldPersistPing_eq_false_iff (w : Controllers.PingWriter) (beat : Heartbeat)
    (ping : HeartbeatPing) :
    Lifecycle.shouldPersistPing ((w.lastWrite.lookup (pingTarget ping)).getD .zero)
      (w.lastWrite.lookup (pingTarget ping)).isSome ping.receivedAt
      (pingResult ping ≠ beat.status.lastResult) (w.throttleFor beat) = false ↔
    Held w beat ping := by
  unfold Held
  rcases w.lastWrite.lookup (pingTarget ping) with _ | previous
  · simp [Lifecycle.shouldPersistPing]
  · simp [Lifecycle.shouldPersistPing]

theorem onPing_held {w : Controllers.PingWriter}
    {get : NamespacedName → Except GetError Heartbeat} {patch : Heartbeat → Bool}
    {ping : HeartbeatPing} {beat : Heartbeat} (hget : get (pingTarget ping) = .ok beat)
    (hheld : Held w beat ping) : w.onPing get patch ping = (w, none) := by
  have hfalse := (shouldPersistPing_eq_false_iff w beat ping).mpr hheld
  simp only [Controllers.PingWriter.onPing, hget, Controllers.PingWriter.shouldWrite, hfalse,
    Bool.false_eq_true, if_false]

theorem onPing_written {w : Controllers.PingWriter}
    {get : NamespacedName → Except GetError Heartbeat} {patch : Heartbeat → Bool}
    {ping : HeartbeatPing} {beat : Heartbeat} (hget : get (pingTarget ping) = .ok beat)
    (hfree : ¬ Held w beat ping) (hpatch : patch (persistPing beat ping) = true) :
    w.onPing get patch ping =
      ({ w with lastWrite := w.lastWrite.insert (pingTarget ping) ping.receivedAt },
        some (persistPing beat ping)) := by
  have htrue := Bool.not_eq_false _ ▸ mt (shouldPersistPing_eq_false_iff w beat ping).mp hfree
  simp only [Controllers.PingWriter.onPing, hget, Controllers.PingWriter.shouldWrite, htrue,
    if_true, hpatch]

theorem onPing_failed {w : Controllers.PingWriter}
    {get : NamespacedName → Except GetError Heartbeat} {patch : Heartbeat → Bool}
    {ping : HeartbeatPing} {beat : Heartbeat} (hget : get (pingTarget ping) = .ok beat)
    (hfree : ¬ Held w beat ping) (hpatch : patch (persistPing beat ping) = false) :
    w.onPing get patch ping =
      ({ w with
          lastWrite := (w.lastWrite.insert (pingTarget ping) ping.receivedAt).erase
            (pingTarget ping) },
        some (persistPing beat ping)) := by
  have htrue := Bool.not_eq_false _ ▸ mt (shouldPersistPing_eq_false_iff w beat ping).mp hfree
  simp only [Controllers.PingWriter.onPing, hget, Controllers.PingWriter.shouldWrite, htrue,
    if_true, hpatch, Bool.false_eq_true, if_false, Controllers.PingWriter.forget]

/-! ## One step of the world -/

theorem get_of_lookup {world : PingWorld} {name : NamespacedName} {beat : Heartbeat}
    (hbeat : world.beats.lookup name = some beat) : world.get name = .ok beat := by
  rw [PingWorld.get, hbeat]

section Step

variable {world : PingWorld} {ping : HeartbeatPing} {patched : Bool} {beat : Heartbeat}

theorem handle_held (hbeat : world.beats.lookup (pingTarget ping) = some beat)
    (hheld : Held world.writer beat ping) : world.handle (.ping ping patched) = world := by
  rw [PingWorld.handle, PingWorld.onPing, onPing_held (get_of_lookup hbeat) hheld]

theorem handle_written (hbeat : world.beats.lookup (pingTarget ping) = some beat)
    (hfree : ¬ Held world.writer beat ping) :
    world.handle (.ping ping true) =
      { world with
        writer := { world.writer with
          lastWrite := world.writer.lastWrite.insert (pingTarget ping) ping.receivedAt }
        beats := world.beats.insert (pingTarget ping) (world.store (persistPing beat ping)) } := by
  rw [PingWorld.handle, PingWorld.onPing, onPing_written (get_of_lookup hbeat) hfree rfl]
  rfl

theorem handle_failed (hbeat : world.beats.lookup (pingTarget ping) = some beat)
    (hfree : ¬ Held world.writer beat ping) :
    world.handle (.ping ping false) =
      { world with
        writer := { world.writer with
          lastWrite := (world.writer.lastWrite.insert (pingTarget ping) ping.receivedAt).erase
            (pingTarget ping) } } := by
  rw [PingWorld.handle, PingWorld.onPing, onPing_failed (get_of_lookup hbeat) hfree rfl]
  rfl

theorem handle_unknown (hbeat : world.beats.lookup (pingTarget ping) = none) :
    world.handle (.ping ping patched) = world := by
  have hget : world.get (pingTarget ping) = .error .notFound := by
    rw [PingWorld.get, hbeat]
  simp only [PingWorld.handle, PingWorld.onPing, Controllers.PingWriter.onPing, hget]

/-- Everything one delivery can do. -/
theorem handle_ping_cases (world : PingWorld) (ping : HeartbeatPing) (patched : Bool) :
    world.handle (.ping ping patched) = world ∨
    (patched = true ∧ ∃ beat, world.beats.lookup (pingTarget ping) = some beat ∧
      world.handle (.ping ping patched) =
        { world with
          writer := { world.writer with
            lastWrite := world.writer.lastWrite.insert (pingTarget ping) ping.receivedAt }
          beats :=
            world.beats.insert (pingTarget ping) (world.store (persistPing beat ping)) }) ∨
    (patched = false ∧
      world.handle (.ping ping patched) =
        { world with
          writer := { world.writer with
            lastWrite := (world.writer.lastWrite.insert (pingTarget ping) ping.receivedAt).erase
              (pingTarget ping) } }) := by
  rcases hbeat : world.beats.lookup (pingTarget ping) with _ | beat
  · exact .inl (handle_unknown hbeat)
  · by_cases hheld : Held world.writer beat ping
    · exact .inl (handle_held hbeat hheld)
    · cases patched with
      | true => exact .inr (.inl ⟨rfl, beat, rfl, handle_written hbeat hheld⟩)
      | false => exact .inr (.inr ⟨rfl, handle_failed hbeat hheld⟩)

end Step

/-- A ping of another Heartbeat leaves this one and its throttle entry alone. -/
theorem handle_other {world : PingWorld} {name : NamespacedName} {ping : HeartbeatPing}
    {patched : Bool} (hother : pingTarget ping ≠ name) :
    (world.handle (.ping ping patched)).beats.lookup name = world.beats.lookup name ∧
    (world.handle (.ping ping patched)).writer.lastWrite.lookup name =
      world.writer.lastWrite.lookup name := by
  have hne : ¬ name = pingTarget ping := fun h => hother h.symm
  rcases handle_ping_cases world ping patched with h | ⟨-, beat, -, h⟩ | ⟨-, h⟩
  · rw [h]
    exact ⟨rfl, rfl⟩
  · rw [h]
    exact ⟨by rw [lookup_insert_ite, if_neg hne], by rw [lookup_insert_ite, if_neg hne]⟩
  · rw [h]
    refine ⟨rfl, ?_⟩
    rw [lookup_erase_ite, if_neg hne, lookup_insert_ite, if_neg hne]

/-- The override and the precision are configuration: no event changes them. -/
theorem handle_configuration (world : PingWorld) (event : PingEvent) :
    (world.handle event).writer.minWriteInterval = world.writer.minWriteInterval ∧
      (world.handle event).stored = world.stored := by
  cases event with
  | restart => exact ⟨rfl, rfl⟩
  | ping ping patched =>
      rcases handle_ping_cases world ping patched with h | ⟨-, beat, -, h⟩ | ⟨-, h⟩
      · rw [h]
        exact ⟨rfl, rfl⟩
      · rw [h]
        exact ⟨rfl, rfl⟩
      · rw [h]
        exact ⟨rfl, rfl⟩

/-- Only the status of a stored Heartbeat changes. -/
theorem handle_spec {world : PingWorld} {name : NamespacedName} {beat : Heartbeat}
    (hbeat : world.beats.lookup name = some beat) (event : PingEvent) :
    ∃ beat', (world.handle event).beats.lookup name = some beat' ∧ beat'.spec = beat.spec := by
  cases event with
  | restart => exact ⟨beat, hbeat, rfl⟩
  | ping ping patched =>
      rcases handle_ping_cases world ping patched with h | ⟨-, stored, hstored, h⟩ | ⟨-, h⟩
      · rw [h]
        exact ⟨beat, hbeat, rfl⟩
      · rw [h]
        by_cases heq : name = pingTarget ping
        · have hsame : stored = beat := by
            rw [heq] at hbeat
            exact Option.some.inj (hstored.symm.trans hbeat)
          refine ⟨world.store (persistPing stored ping), ?_, ?_⟩
          · rw [lookup_insert_ite, if_pos heq]
          · rw [hsame]
            rfl
        · refine ⟨beat, ?_, rfl⟩
          rw [lookup_insert_ite, if_neg heq]
          exact hbeat
      · rw [h]
        exact ⟨beat, hbeat, rfl⟩

/-! ## The throttle entry mirrors the status -/

/-- The entry of a Heartbeat, if there is one, is the time of its persisted ping. -/
def Mirrors (world : PingWorld) (name : NamespacedName) : Prop :=
  ∀ entry, world.writer.lastWrite.lookup name = some entry →
    ∀ beat, world.beats.lookup name = some beat →
      beat.status.lastPingTime = some (world.stored entry)

theorem handle_mirrors {world : PingWorld} {name : NamespacedName}
    (hmirrors : Mirrors world name) (event : PingEvent) :
    Mirrors (world.handle event) name := by
  cases event with
  | restart =>
      intro entry hentry
      cases hentry
  | ping ping patched =>
      rcases handle_ping_cases world ping patched with h | ⟨-, stored, -, h⟩ | ⟨-, h⟩
      · rw [h]
        exact hmirrors
      · rw [h]
        intro entry hentry beat hbeat
        rw [lookup_insert_ite] at hentry hbeat
        by_cases heq : name = pingTarget ping
        · rw [if_pos heq] at hentry hbeat
          cases hentry
          cases hbeat
          rfl
        · rw [if_neg heq] at hentry hbeat
          exact hmirrors entry hentry beat hbeat
      · rw [h]
        intro entry hentry beat hbeat
        rw [lookup_erase_ite] at hentry
        by_cases heq : name = pingTarget ping
        · rw [if_pos heq] at hentry
          cases hentry
        · rw [if_neg heq, lookup_insert_ite, if_neg heq] at hentry
          exact hmirrors entry hentry beat hbeat

theorem run_mirrors {world : PingWorld} (hfresh : world.writer.lastWrite = ∅)
    (name : NamespacedName) (events : List PingEvent) : Mirrors (world.run events) name := by
  induction events using List.reverseRecOn with
  | nil =>
      intro entry hentry
      rw [show (world.run []).writer.lastWrite = ∅ from hfresh] at hentry
      cases hentry
  | append_singleton events event ih =>
      rw [PingWorld.run_snoc]
      exact handle_mirrors ih event

theorem run_configuration (world : PingWorld) (events : List PingEvent) :
    (world.run events).writer.minWriteInterval = world.writer.minWriteInterval ∧
      (world.run events).stored = world.stored := by
  induction events using List.reverseRecOn with
  | nil => exact ⟨rfl, rfl⟩
  | append_singleton events event ih =>
      obtain ⟨hinterval, hstored⟩ := handle_configuration (world.run events) event
      rw [PingWorld.run_snoc]
      exact ⟨hinterval.trans ih.1, hstored.trans ih.2⟩

theorem throttleFor_run {world : PingWorld} {events : List PingEvent} {beat beat' : Heartbeat}
    (hspec : beat'.spec = beat.spec) :
    (world.run events).writer.throttleFor beat' =
      Lifecycle.writeInterval beat.spec.period world.writer.minWriteInterval := by
  rw [Controllers.PingWriter.throttleFor, hspec, (run_configuration world events).1]

theorem run_spec {world : PingWorld} {name : NamespacedName} {beat : Heartbeat}
    (hbeat : world.beats.lookup name = some beat) (events : List PingEvent) :
    ∃ beat', (world.run events).beats.lookup name = some beat' ∧ beat'.spec = beat.spec := by
  induction events using List.reverseRecOn with
  | nil => exact ⟨beat, hbeat, rfl⟩
  | append_singleton events event ih =>
      obtain ⟨mid, hmid, hspec⟩ := ih
      obtain ⟨last, hlast, hspec'⟩ := handle_spec hmid event
      rw [PingWorld.run_snoc]
      exact ⟨last, hlast, hspec'.trans hspec⟩

/-! ## How old the status can be -/

/-- The time of a ping of this Heartbeat. -/
def receivedOf (name : NamespacedName) : PingEvent → Option Time
  | .ping ping _ => if pingTarget ping = name then some ping.receivedAt else none
  | .restart => none

/-- The pings of the Heartbeat arrive in order. -/
def InOrder (name : NamespacedName) (events : List PingEvent) : Prop :=
  (events.filterMap (receivedOf name)).Pairwise fun earlier later => earlier.nanos ≤ later.nanos

/-- The handling of the ping sends a `Patch` and the `Patch` fails. -/
def PatchFails (world : PingWorld) (ping : HeartbeatPing) (patched : Bool) : Prop :=
  (world.onPing ping patched).2 ≠ none ∧ patched = false

/-- A throttle entry is the time of a ping that was delivered. -/
theorem run_entry_received {world : PingWorld} (hfresh : world.writer.lastWrite = ∅)
    (name : NamespacedName) (events : List PingEvent) {entry : Time}
    (hentry : (world.run events).writer.lastWrite.lookup name = some entry) :
    entry ∈ events.filterMap (receivedOf name) := by
  induction events using List.reverseRecOn with
  | nil =>
      rw [show (world.run []).writer.lastWrite = ∅ from hfresh] at hentry
      cases hentry
  | append_singleton events event ih =>
      rw [List.filterMap_append, List.mem_append]
      rw [PingWorld.run_snoc] at hentry
      cases event with
      | restart => cases hentry
      | ping ping patched =>
          by_cases htarget : pingTarget ping = name
          · rcases handle_ping_cases (world.run events) ping patched with
              h | ⟨-, beat, -, h⟩ | ⟨-, h⟩
            · rw [h] at hentry
              exact .inl (ih hentry)
            · rw [h, lookup_insert_ite, if_pos htarget.symm] at hentry
              cases hentry
              refine .inr (List.mem_filterMap.mpr ⟨_, List.mem_singleton_self _, ?_⟩)
              exact if_pos htarget
            · rw [h, lookup_erase_ite, if_pos htarget.symm] at hentry
              cases hentry
          · rw [(handle_other htarget).2] at hentry
            exact .inl (ih hentry)

/-- With pings in order, a throttle entry is not newer than the next ping. -/
theorem entry_le_next {world : PingWorld} (hfresh : world.writer.lastWrite = ∅)
    {before : List PingEvent} {ping : HeartbeatPing} {patched : Bool}
    (horder : InOrder (pingTarget ping) (before ++ [.ping ping patched])) {entry : Time}
    (hentry : (world.run before).writer.lastWrite.lookup (pingTarget ping) = some entry) :
    entry.nanos ≤ ping.receivedAt.nanos := by
  have hmem := run_entry_received hfresh (pingTarget ping) before hentry
  have hlast : [PingEvent.ping ping patched].filterMap (receivedOf (pingTarget ping)) =
      [ping.receivedAt] := by
    simp [receivedOf]
  rw [InOrder, List.filterMap_append, hlast] at horder
  exact (List.pairwise_append.mp horder).2.2 entry hmem _ (List.mem_singleton_self _)

theorem inOrder_earlier {name : NamespacedName} {before events : List PingEvent}
    (horder : InOrder name events) (hbefore : before <+: events) : InOrder name before := by
  obtain ⟨rest, rfl⟩ := hbefore
  rw [InOrder, List.filterMap_append] at horder
  exact (List.pairwise_append.mp horder).1

/-- For every run of pings in order, with `Patch` calls that fail and restarts
anywhere: after a ping whose handling saw no failed `Patch`, the status has its
outcome, and as it is stored the time of a ping that is less than one write interval
behind it. -/
theorem status_fresh (world : PingWorld) (hfresh : world.writer.lastWrite = ∅)
    (name : NamespacedName) (beat : Heartbeat) (hbeat : world.beats.lookup name = some beat)
    (hperiod : beat.spec.period ≥ 1000000000) (events : List PingEvent)
    (horder : InOrder name events) (before : List PingEvent) (ping : HeartbeatPing)
    (patched : Bool) (hbefore : before ++ [.ping ping patched] <+: events)
    (htarget : pingTarget ping = name)
    (hpatch : ¬ PatchFails (world.run before) ping patched) :
    ∃ beat', ∃ lastPing ∈ List.filterMap (receivedOf name) (before ++ [.ping ping patched]),
      (world.run (before ++ [.ping ping patched])).beats.lookup name = some beat' ∧
      beat'.status.lastResult = pingResult ping ∧
      beat'.status.lastPingTime = some (world.stored lastPing) ∧
      0 ≤ ping.receivedAt.sub lastPing ∧
      ping.receivedAt.sub lastPing <
        Lifecycle.writeInterval beat.spec.period world.writer.minWriteInterval := by
  subst htarget
  obtain ⟨stored, hstored, hspec⟩ := run_spec hbeat before
  have hinterval : (world.run before).writer.throttleFor stored =
      Lifecycle.writeInterval beat.spec.period world.writer.minWriteInterval :=
    throttleFor_run hspec
  have hprecision := (run_configuration world before).2
  rw [PingWorld.run_snoc]
  by_cases hheld : Held (world.run before).writer stored ping
  · -- nothing is written; the entry is the persisted time
    obtain ⟨entry, hentry, hresult, hsub⟩ := id hheld
    have hlast := run_mirrors hfresh (pingTarget ping) before entry hentry stored hstored
    have hle := entry_le_next hfresh (inOrder_earlier horder hbefore) hentry
    have hmem := run_entry_received hfresh (pingTarget ping) before hentry
    rw [handle_held hstored hheld]
    rw [hprecision] at hlast
    refine ⟨stored, entry, ?_, hstored, hresult.symm, hlast, ?_, ?_⟩
    · rw [List.filterMap_append]
      exact List.mem_append_left _ hmem
    · exact Int.sub_nonneg.mpr hle
    · rw [← hinterval]
      exact hsub
  · have hpatched : patched = true := by
      cases patched with
      | true => rfl
      | false =>
          refine absurd ⟨?_, rfl⟩ hpatch
          rw [PingWorld.onPing, onPing_failed (get_of_lookup hstored) hheld rfl]
          exact Option.some_ne_none _
    subst hpatched
    rw [handle_written hstored hheld]
    refine ⟨(world.run before).store (persistPing stored ping), ping.receivedAt, ?_, ?_, rfl, ?_,
      ?_, ?_⟩
    · simp [receivedOf]
    · rw [lookup_insert_ite, if_pos rfl]
    · rw [← hprecision]
      rfl
    · exact Int.sub_nonneg.mpr (Int.le_refl _)
    · have hzero : ping.receivedAt.sub ping.receivedAt = 0 := Int.sub_self _
      rw [hzero]
      exact writeInterval_pos _ hperiod

/-- A Heartbeat that was never pinged, with a period of one minute. -/
def nightly : Heartbeat where
  name := "nightly"
  ns := "default"
  generation := 1
  deletionTimestamp := none
  spec := ⟨60000000000, 0, false, none, [], ∅⟩
  status := { lastPingTime := none, lastResult := "" }

/-- A new writer and that Heartbeat. -/
def nightlyWorld : PingWorld :=
  ⟨Time.wholeSeconds, ⟨0, ∅⟩, Finmap.singleton ⟨"default", "nightly"⟩ nightly⟩

def nightlyPing (seconds : Int) (failed : Bool) : HeartbeatPing where
  name := "nightly"
  ns := "default"
  receivedAt := ⟨seconds * 1000000000⟩
  failed := failed
  exitCode := if failed then 1 else 0
  output := []

/-- A first ping whose `Patch` fails, a second one that is written, a third one that
the throttle holds back. -/
theorem status_fresh_throttled :
    ∃ beat', ∃ lastPing ∈ List.filterMap (receivedOf ⟨"default", "nightly"⟩)
        ([.ping (nightlyPing 100 false) false, .ping (nightlyPing 101 false) true] ++
        [.ping (nightlyPing 110 false) true]),
      (nightlyWorld.run ([.ping (nightlyPing 100 false) false,
        .ping (nightlyPing 101 false) true] ++
        [.ping (nightlyPing 110 false) true])).beats.lookup ⟨"default", "nightly"⟩ =
          some beat' ∧
      beat'.status.lastResult = pingResult (nightlyPing 110 false) ∧
      beat'.status.lastPingTime = some (nightlyWorld.stored lastPing) ∧
      0 ≤ (nightlyPing 110 false).receivedAt.sub lastPing ∧
      (nightlyPing 110 false).receivedAt.sub lastPing <
        Lifecycle.writeInterval nightly.spec.period nightlyWorld.writer.minWriteInterval :=
  status_fresh nightlyWorld rfl ⟨"default", "nightly"⟩ nightly rfl (by decide) _
    (by unfold InOrder; decide) _ (nightlyPing 110 false) true (List.prefix_refl _) rfl
    (fun h => by cases h.2)

/-! ## Pings out of order -/

/-- The persisted time of a Heartbeat. -/
def persistedTime (world : PingWorld) (name : NamespacedName) : Option Time :=
  (world.beats.lookup name).bind fun beat => beat.status.lastPingTime

/-- The persisted outcome of a Heartbeat. -/
def persistedResult (world : PingWorld) (name : NamespacedName) : Option String :=
  (world.beats.lookup name).map fun beat => beat.status.lastResult

/-- A time once persisted is followed by one that is not older. -/
def NotOlder (before after : Option Time) : Prop :=
  ∀ earlier, before = some earlier →
    ∃ later, after = some later ∧ earlier.nanos ≤ later.nanos

/-- The status is the first one, or the time as it is stored and the outcome of one delivered
ping. -/
def FromPing (first world : PingWorld) (name : NamespacedName) (pings : List HeartbeatPing) :
    Prop :=
  (persistedTime world name = persistedTime first name ∧
    persistedResult world name = persistedResult first name) ∨
  ∃ ping ∈ pings, pingTarget ping = name ∧
    persistedTime world name = some (first.stored ping.receivedAt) ∧
    persistedResult world name = some (pingResult ping)

/-- Pings delivered one after the other; every `Patch` succeeds. -/
def delivered (world : PingWorld) (pings : List HeartbeatPing) : PingWorld :=
  world.run (pings.map fun ping => .ping ping true)

theorem delivered_snoc (world : PingWorld) (pings : List HeartbeatPing) (ping : HeartbeatPing) :
    delivered world (pings ++ [ping]) = (delivered world pings).handle (.ping ping true) := by
  rw [delivered, List.map_append]
  exact PingWorld.run_snoc _ _ _

/-- A ping that would be stored with an older time than the persisted one has a throttle entry
and reports the persisted outcome. -/
def OldIsHeld (world : PingWorld) (ping : HeartbeatPing) : Prop :=
  ∀ persisted, persistedTime world (pingTarget ping) = some persisted →
    (world.stored ping.receivedAt).nanos < persisted.nanos →
    pingTarget ping ∈ world.writer.lastWrite ∧
      persistedResult world (pingTarget ping) = some (pingResult ping)

theorem fromPing_snoc {first world : PingWorld} {name : NamespacedName}
    {pings : List HeartbeatPing} (ping : HeartbeatPing) (hstored : world.stored = first.stored)
    (hfrom : FromPing first world name pings) :
    FromPing first (world.handle (.ping ping true)) name (pings ++ [ping]) := by
  have hkept (hbeat : (world.handle (.ping ping true)).beats.lookup name =
      world.beats.lookup name) :
      FromPing first (world.handle (.ping ping true)) name (pings ++ [ping]) := by
    rw [FromPing, persistedTime, persistedResult, hbeat]
    rcases hfrom with hfirst | ⟨seen, hseen, hrest⟩
    · exact .inl hfirst
    · exact .inr ⟨seen, List.mem_append_left _ hseen, hrest⟩
  rcases handle_ping_cases world ping true with h | ⟨-, beat, -, h⟩ | ⟨hfalse, -⟩
  · exact hkept (by rw [h])
  · by_cases htarget : pingTarget ping = name
    · refine .inr ⟨ping, List.mem_append_right _ (List.mem_singleton_self _), htarget, ?_, ?_⟩
      · rw [persistedTime, h, lookup_insert_ite, if_pos htarget.symm, ← hstored]
        rfl
      · rw [persistedResult, h, lookup_insert_ite, if_pos htarget.symm]
        rfl
    · exact hkept (handle_other htarget).1
  · cases hfalse

theorem delivered_fromPing (world : PingWorld) (name : NamespacedName)
    (pings : List HeartbeatPing) : FromPing world (delivered world pings) name pings := by
  induction pings using List.reverseRecOn with
  | nil => exact .inl ⟨rfl, rfl⟩
  | append_singleton pings ping ih =>
      rw [delivered_snoc]
      exact fromPing_snoc ping (run_configuration world _).2 ih

theorem persistedTime_of_lookup {world : PingWorld} {name : NamespacedName} {beat : Heartbeat}
    (hbeat : world.beats.lookup name = some beat) :
    persistedTime world name = beat.status.lastPingTime := by
  rw [persistedTime, hbeat]
  rfl

theorem persistedResult_of_lookup {world : PingWorld} {name : NamespacedName} {beat : Heartbeat}
    (hbeat : world.beats.lookup name = some beat) :
    persistedResult world name = some beat.status.lastResult := by
  rw [persistedResult, hbeat]
  rfl

theorem oldIsHeld_of_held {world : PingWorld} {ping : HeartbeatPing} {beat : Heartbeat}
    (hbeat : world.beats.lookup (pingTarget ping) = some beat)
    (hheld : Held world.writer beat ping) : OldIsHeld world ping := by
  obtain ⟨entry, hentry, hsame, -⟩ := hheld
  intro _ _ _
  refine ⟨Finmap.mem_of_lookup_eq_some hentry, ?_⟩
  rw [persistedResult_of_lookup hbeat, hsame]

/-- The entry of an older ping is stored as the persisted time, so the ping is before it. -/
theorem held_of_oldIsHeld {world : PingWorld} {ping : HeartbeatPing} {beat : Heartbeat}
    (hseconds : world.stored = Time.wholeSeconds) (hmirrors : Mirrors world (pingTarget ping))
    (hbeat : world.beats.lookup (pingTarget ping) = some beat) (hold : OldIsHeld world ping)
    {persisted : Time} (hpersisted : persistedTime world (pingTarget ping) = some persisted)
    (hlt : (world.stored ping.receivedAt).nanos < persisted.nanos) :
    Held world.writer beat ping := by
  obtain ⟨hmem, hsame⟩ := hold persisted hpersisted hlt
  obtain ⟨entry, hentry⟩ := Finmap.mem_iff.mp hmem
  have hentryTime := hmirrors entry hentry beat hbeat
  rw [persistedTime_of_lookup hbeat, hentryTime] at hpersisted
  rw [persistedResult_of_lookup hbeat] at hsame
  obtain rfl : world.stored entry = persisted := Option.some.inj hpersisted
  rw [hseconds] at hlt
  have hbefore := Time.nanos_lt_of_wholeSeconds hlt
  refine ⟨entry, hentry, (Option.some.inj hsame).symm, ?_⟩
  have hnonneg := writeInterval_nonneg beat.spec.period world.writer.minWriteInterval
  calc ping.receivedAt.sub entry
      < (0 : Int) := by
        show ping.receivedAt.nanos - entry.nanos < 0
        omega
    _ ≤ world.writer.throttleFor beat := hnonneg

/-- One delivery moves the persisted time backwards unless an older ping is held back. -/
theorem notOlder_handle_iff {world : PingWorld} {ping : HeartbeatPing}
    (hseconds : world.stored = Time.wholeSeconds) (hmirrors : Mirrors world (pingTarget ping)) :
    NotOlder (persistedTime world (pingTarget ping))
      (persistedTime (world.handle (.ping ping true)) (pingTarget ping)) ↔
    OldIsHeld world ping := by
  cases hbeat : world.beats.lookup (pingTarget ping) with
  | none =>
      have htime : ∀ earlier, persistedTime world (pingTarget ping) ≠ some earlier := by
        rw [persistedTime, hbeat]
        exact fun _ => Option.some_ne_none _ ∘ Eq.symm
      exact iff_of_true (fun earlier h => absurd h (htime earlier))
        fun earlier h => absurd h (htime earlier)
  | some beat =>
      by_cases hheld : Held world.writer beat ping
      · rw [handle_held hbeat hheld]
        refine iff_of_true ?_ (oldIsHeld_of_held hbeat hheld)
        intro earlier hearlier
        exact ⟨earlier, hearlier, Int.le_refl _⟩
      · have hafter : persistedTime (world.handle (.ping ping true)) (pingTarget ping) =
            some (world.stored ping.receivedAt) := by
          rw [handle_written hbeat hheld, persistedTime, lookup_insert_ite, if_pos rfl]
          rfl
        rw [hafter]
        constructor
        · intro hnot earlier hearlier hold
          obtain ⟨later, hlater, hle⟩ := hnot earlier hearlier
          cases hlater
          omega
        · intro hold earlier hearlier
          refine ⟨world.stored ping.receivedAt, rfl, ?_⟩
          by_contra hlt
          exact hheld (held_of_oldIsHeld hseconds hmirrors hbeat hold hearlier (by omega))

/-- For every sequence of pings in any order, with times that are stored in whole seconds: the
persisted time of a Heartbeat never moves backwards and the status always is that of one ping,
exactly when every ping whose second is before the persisted one is held back. -/
theorem persisted_monotone_iff (world : PingWorld) (hseconds : world.stored = Time.wholeSeconds)
    (hfresh : world.writer.lastWrite = ∅) (name : NamespacedName) (pings : List HeartbeatPing) :
    (∀ before ping, before ++ [ping] <+: pings →
      NotOlder (persistedTime (delivered world before) name)
        (persistedTime (delivered world (before ++ [ping])) name) ∧
      FromPing world (delivered world (before ++ [ping])) name (before ++ [ping])) ↔
    ∀ before ping, before ++ [ping] <+: pings → pingTarget ping = name →
      OldIsHeld (delivered world before) ping := by
  have hprecision : ∀ before, (delivered world before).stored = Time.wholeSeconds :=
    fun before => (run_configuration world _).2.trans hseconds
  constructor
  · intro h before ping hbefore htarget
    subst htarget
    have hnot := (h before ping hbefore).1
    rw [delivered_snoc] at hnot
    exact (notOlder_handle_iff (hprecision before) (run_mirrors hfresh _ _)).mp hnot
  · intro h before ping hbefore
    refine ⟨?_, delivered_fromPing world name (before ++ [ping])⟩
    rw [delivered_snoc]
    by_cases htarget : pingTarget ping = name
    · have hold := h before ping hbefore htarget
      subst htarget
      exact (notOlder_handle_iff (hprecision before) (run_mirrors hfresh _ _)).mpr hold
    · rw [persistedTime, persistedTime, (handle_other htarget).1]
      intro earlier hearlier
      exact ⟨earlier, hearlier, Int.le_refl _⟩

/-- Two pings in order, then the first one once more. -/
theorem persisted_monotone_redelivery :
    NotOlder
      (persistedTime (delivered nightlyWorld [nightlyPing 100 false, nightlyPing 160 false])
        ⟨"default", "nightly"⟩)
      (persistedTime (delivered nightlyWorld
        ([nightlyPing 100 false, nightlyPing 160 false] ++ [nightlyPing 100 false]))
        ⟨"default", "nightly"⟩) ∧
    FromPing nightlyWorld (delivered nightlyWorld
        ([nightlyPing 100 false, nightlyPing 160 false] ++ [nightlyPing 100 false]))
      ⟨"default", "nightly"⟩
      ([nightlyPing 100 false, nightlyPing 160 false] ++ [nightlyPing 100 false]) := by
  refine (persisted_monotone_iff nightlyWorld rfl rfl ⟨"default", "nightly"⟩ _).mpr ?_ _ _
    (List.prefix_refl _)
  refine forall_step_of_take ?_
  intro i hi _ persisted hpersisted hold
  match i with
  | 0 => cases hpersisted
  | 1 =>
      obtain rfl : (nightlyPing 100 false).receivedAt = persisted := Option.some.inj hpersisted
      have hnot : ¬ (nightlyPing 160 false).receivedAt.nanos <
          (nightlyPing 100 false).receivedAt.nanos := by
        decide
      exact absurd hold hnot
  | 2 =>
      have hheld : (⟨"default", "nightly"⟩ : NamespacedName) ∈ (delivered nightlyWorld
            [nightlyPing 100 false, nightlyPing 160 false]).writer.lastWrite ∧
          persistedResult (delivered nightlyWorld
            [nightlyPing 100 false, nightlyPing 160 false]) ⟨"default", "nightly"⟩ =
              some HeartbeatStatus.resultOK := by
        decide +kernel
      exact hheld

-- An older ping of the same second replaces the outcome and leaves the time.
example :
    persistedTime (delivered nightlyWorld
      [{ nightlyPing 100 false with receivedAt := ⟨100900000000⟩ },
        { nightlyPing 100 true with receivedAt := ⟨100200000000⟩ }]) ⟨"default", "nightly"⟩ =
      some ⟨100000000000⟩ := by
  decide +kernel

/-- A failed ping that is older than the persisted one replaces it. -/
theorem older_failure_replaces :
    persistedTime (delivered nightlyWorld [nightlyPing 100 false]) ⟨"default", "nightly"⟩ =
      some ⟨100000000000⟩ ∧
    persistedTime (delivered nightlyWorld [nightlyPing 100 false, nightlyPing 50 true])
      ⟨"default", "nightly"⟩ = some ⟨50000000000⟩ := by
  decide +kernel

end SyntheticsOperator.Proofs.PingWriter
