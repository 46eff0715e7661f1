import SyntheticsOperator.Probes.Scheduler
import SyntheticsOperator.Support.Histories

/-!
# Bookkeeping of the probe scheduler

Who owns a stop channel: a channel that is open belongs to the entry that the map holds
for its key, whatever the order of the sections.  So nobody closes a channel twice, and a
probe that was replaced or removed is stopped.  While the scheduler runs, the map holds
what the last `Register` of each key asked for, unless an `Unregister` came after it.
-/

namespace SyntheticsOperator.Proofs.Scheduling

open SyntheticsOperator.Api (CrKey)
open SyntheticsOperator.Probes
open SyntheticsOperator.Results (SpecUpdate)
open SyntheticsOperator.Support

/-! ## Who owns a stop channel -/

/-- Every open channel is that of an entry of the map. -/
structure Owned (s : Scheduler) (created : List ScheduledProbe) : Prop where
  once : s.closes.Nodup
  fresh : ∀ n ∈ s.closes, n < s.made
  made : ∀ p ∈ created, p.stop < s.made
  distinct : ∀ p ∈ created, ∀ q ∈ created, p.stop = q.stop → p = q
  held : ∀ key p, s.probes.lookup key = some p → p ∈ created ∧ p.spec.key = key
  open_iff : ∀ p ∈ created, p.stop ∉ s.closes ↔ s.probes.lookup p.spec.key = some p

theorem owned_new : Owned .new [] where
  once := Multiset.nodup_zero
  fresh _ h := absurd h (Multiset.notMem_zero _)
  made _ h := nomatch h
  distinct _ h := nomatch h
  held _ _ h := nomatch h
  open_iff _ h := nomatch h

theorem Owned.unregister {s : Scheduler} {created : List ScheduledProbe} (h : Owned s created)
    (key : CrKey) : Owned (s.unregister key) created := by
  cases hlookup : s.probes.lookup key with
  | none =>
      have hsame : s.unregister key = s := by simp [Scheduler.unregister, hlookup]
      rw [hsame]
      exact h
  | some p =>
      obtain ⟨hp, hkey⟩ := h.held key p hlookup
      have hopen : p.stop ∉ s.closes := (h.open_iff p hp).mpr (by rw [hkey, hlookup])
      have hcloses : (s.unregister key).closes = p.stop ::ₘ s.closes := by
        simp [Scheduler.unregister, hlookup]
      constructor
      case once =>
        rw [hcloses]
        exact Multiset.nodup_cons.mpr ⟨hopen, h.once⟩
      case fresh =>
        intro n hn
        rw [hcloses, Multiset.mem_cons] at hn
        rw [Scheduler.unregister_made]
        rcases hn with rfl | hn
        · exact h.made p hp
        · exact h.fresh n hn
      case made =>
        intro q hq
        rw [Scheduler.unregister_made]
        exact h.made q hq
      case distinct => exact h.distinct
      case held =>
        intro key' q hq
        rw [Scheduler.lookup_unregister] at hq
        split at hq
        · cases hq
        · exact h.held key' q hq
      case open_iff =>
        intro q hq
        rw [hcloses, Multiset.mem_cons, not_or, h.open_iff q hq, Scheduler.lookup_unregister]
        by_cases heq : q.spec.key = key
        · -- the entry of the key was `p`, and its channel is closed now
          rw [if_pos heq, heq, hlookup]
          simp only [Option.some.injEq, reduceCtorEq, iff_false, not_and]
          rintro hne rfl
          exact hne rfl
        · rw [if_neg heq, and_iff_right]
          intro hstop
          rw [h.distinct q hq p hp hstop] at heq
          exact heq hkey

/-- A new scheduled probe takes the next channel and the free place of its key. -/
theorem Owned.insert {s : Scheduler} {created : List ScheduledProbe} (h : Owned s created)
    (p : ScheduledProbe) (hstop : p.stop = s.made) (hfree : s.probes.lookup p.spec.key = none) :
    Owned { s with probes := s.probes.insert p.spec.key p, made := s.made + 1 }
      (created ++ [p]) := by
  have hnew : ∀ q ∈ created, q.stop ≠ p.stop := by
    intro q hq heq
    have := h.made q hq
    omega
  have hmem : ∀ q, q ∈ created ++ [p] ↔ q ∈ created ∨ q = p := by simp
  constructor
  case once => exact h.once
  case fresh => exact fun n hn => Nat.lt_succ_of_lt (h.fresh n hn)
  case made =>
    intro q hq
    rcases (hmem q).mp hq with hq | rfl
    · exact Nat.lt_succ_of_lt (h.made q hq)
    · exact hstop ▸ Nat.lt_succ_self s.made
  case distinct =>
    intro q hq r hr heq
    rcases (hmem q).mp hq with hq | hq <;> rcases (hmem r).mp hr with hr | hr
    · exact h.distinct q hq r hr heq
    · exact absurd (hr ▸ heq) (hnew q hq)
    · exact absurd (hq ▸ heq.symm) (hnew r hr)
    · rw [hq, hr]
  case held =>
    intro key q hq
    rw [lookup_insert_ite] at hq
    split at hq
    · rename_i heq
      cases hq
      exact ⟨(hmem p).mpr (.inr rfl), heq.symm⟩
    · obtain ⟨hq, hkey⟩ := h.held key q hq
      exact ⟨(hmem q).mpr (.inl hq), hkey⟩
  case open_iff =>
    intro q hq
    show q.stop ∉ s.closes ↔ (s.probes.insert p.spec.key p).lookup q.spec.key = some q
    rw [lookup_insert_ite]
    rcases (hmem q).mp hq with hq | rfl
    · rw [h.open_iff q hq]
      split
      · rename_i heq
        rw [heq, hfree]
        have hne : p ≠ q := fun heq => hnew q hq (heq ▸ rfl)
        simp [hne]
      · rfl
    · have hopen : q.stop ∉ s.closes := by
        intro hclosed
        have := h.fresh q.stop hclosed
        omega
      simp [hopen]

theorem Owned.register {s : Scheduler} {created : List ScheduledProbe} (h : Owned s created)
    (spec : SpecUpdate) :
    Owned (s.register spec)
      (created ++ ((s.register spec).probes.lookup spec.key).toList) := by
  cases hstarted : s.started with
  | false =>
      rw [Scheduler.register_of_not_started hstarted, Scheduler.lookup_unregister, if_pos rfl]
      simpa using h.unregister spec.key
  | true =>
      rw [Scheduler.lookup_register hstarted, Scheduler.register_of_started hstarted]
      have hfree : (s.unregister spec.key).probes.lookup spec.key = none := by
        rw [Scheduler.lookup_unregister, if_pos rfl]
      have hmade : s.made = (s.unregister spec.key).made := (s.unregister_made spec.key).symm
      rw [hmade]
      exact (h.unregister spec.key).insert
        ⟨spec, spec.intervalMs * 1000000, (s.unregister spec.key).made⟩ rfl hfree

/-- The sweep at the end closes each channel that is still open, and none other. -/
theorem Owned.shutdown {s : Scheduler} {created : List ScheduledProbe} (h : Owned s created) :
    Owned s.shutdown created := by
  have hentry : ∀ entry ∈ s.probes.entries, entry.2 ∈ created ∧ entry.2.spec.key = entry.1 :=
    fun entry hentry => h.held entry.1 entry.2 (Finmap.lookup_eq_some_iff.mpr hentry)
  have hopen : ∀ entry ∈ s.probes.entries, entry.2.stop ∉ s.closes := by
    intro entry he
    obtain ⟨hmem, hkey⟩ := hentry entry he
    rw [h.open_iff _ hmem, hkey]
    exact Finmap.lookup_eq_some_iff.mpr he
  have hswept : (s.probes.entries.map fun entry => entry.2.stop).Nodup := by
    refine Multiset.Nodup.map_on ?_ s.probes.nodup_entries
    intro a ha b hb heq
    have hsame : a.2 = b.2 := h.distinct _ (hentry a ha).1 _ (hentry b hb).1 heq
    have hkeys : a.1 = b.1 := by rw [← (hentry a ha).2, ← (hentry b hb).2, hsame]
    exact Sigma.ext hkeys (heq_of_eq hsame)
  have hcloses : ∀ n, n ∈ s.shutdown.closes ↔
      n ∈ s.closes ∨ ∃ entry ∈ s.probes.entries, entry.2.stop = n := by
    intro n
    rw [Scheduler.shutdown, Multiset.mem_add, Multiset.mem_map]
  constructor
  case once =>
    refine Multiset.nodup_add.mpr ⟨h.once, hswept, Multiset.disjoint_left.mpr ?_⟩
    intro n hn hmap
    obtain ⟨entry, he, rfl⟩ := Multiset.mem_map.mp hmap
    exact hopen entry he hn
  case fresh =>
    intro n hn
    rcases (hcloses n).mp hn with hn | ⟨entry, he, rfl⟩
    · exact h.fresh n hn
    · exact h.made _ (hentry entry he).1
  case made => exact h.made
  case distinct => exact h.distinct
  case held => exact fun _ _ hlookup => nomatch hlookup
  case open_iff =>
    intro p hp
    refine iff_of_false ?_ (fun hlookup => nomatch hlookup)
    rw [not_not, hcloses]
    by_cases hclosed : p.stop ∈ s.closes
    · exact .inl hclosed
    · have hlookup := (h.open_iff p hp).mp hclosed
      exact .inr ⟨⟨p.spec.key, p⟩, Finmap.lookup_eq_some_iff.mp hlookup, rfl⟩

/-! ## What the callers asked for -/

/-- The key that a call is about. -/
def about : Section → Option CrKey
  | .register spec => some spec.key
  | .unregister key => some key
  | .start | .cancel | .shutdown => none

/-- `spec` was registered after `Start`, and no `Register` and no `Unregister` of its key
came later. -/
def Standing (sections : List Section) (spec : SpecUpdate) : Prop :=
  ∃ before after, sections = before ++ .register spec :: after ∧ .start ∈ before ∧
    ∀ later ∈ after, about later ≠ some spec.key

theorem Standing.start_mem {sections : List Section} {spec : SpecUpdate}
    (h : Standing sections spec) : .start ∈ sections := by
  obtain ⟨before, after, rfl, hstart, _⟩ := h
  exact List.mem_append_left _ hstart

theorem standing_snoc (sections : List Section) (last : Section) (spec : SpecUpdate) :
    Standing (sections ++ [last]) spec ↔
      (last = .register spec ∧ .start ∈ sections) ∨
        (Standing sections spec ∧ about last ≠ some spec.key) := by
  constructor
  · rintro ⟨before, after, heq, hstart, hlater⟩
    cases after using List.reverseRecOn with
    | nil =>
        obtain ⟨rfl, hlast⟩ := List.append_inj' heq rfl
        exact .inl ⟨by simpa using hlast, hstart⟩
    | append_singleton after x =>
        rw [← List.cons_append, ← List.append_assoc] at heq
        obtain ⟨hsections, hlast⟩ := List.append_inj' heq rfl
        obtain rfl : last = x := by simpa using hlast
        have hstanding : ∀ later ∈ after, about later ≠ some spec.key :=
          fun later hmem => hlater later (List.mem_append_left _ hmem)
        exact .inr ⟨⟨before, after, hsections, hstart, hstanding⟩, hlater last (by simp)⟩
  · rintro (⟨rfl, hstart⟩ | ⟨⟨before, after, rfl, hstart, hlater⟩, hlast⟩)
    · exact ⟨sections, [], rfl, hstart, fun _ h => nomatch h⟩
    · refine ⟨before, after ++ [last], by simp, hstart, fun later hmem => ?_⟩
      rcases List.mem_append.mp hmem with hmem | hmem
      · exact hlater later hmem
      · rw [List.mem_singleton.mp hmem]
        exact hlast

/-- The map holds `spec` under its key, to be run every `interval`. -/
def Holds (s : Scheduler) (spec : SpecUpdate) (interval : Duration) : Prop :=
  ∃ stop, s.probes.lookup spec.key = some ⟨spec, interval, stop⟩

theorem holds_unregister (s : Scheduler) (key : CrKey) (spec : SpecUpdate) (interval : Duration) :
    Holds (s.unregister key) spec interval ↔ Holds s spec interval ∧ key ≠ spec.key := by
  simp only [Holds, Scheduler.lookup_unregister]
  split
  · rename_i heq
    simp [heq]
  · rename_i hne
    simp [Ne.symm hne]

theorem holds_register {s : Scheduler} (hstarted : s.started = true) (new spec : SpecUpdate)
    (interval : Duration) :
    Holds (s.register new) spec interval ↔
      (new = spec ∧ interval = spec.intervalMs * 1000000) ∨
        (Holds s spec interval ∧ new.key ≠ spec.key) := by
  by_cases hkey : new.key = spec.key
  · have hnow := Scheduler.lookup_register hstarted new
    rw [hkey] at hnow
    simp only [Holds, hnow, Option.some.injEq, ScheduledProbe.mk.injEq, exists_and_left,
      exists_eq', and_true, hkey, ne_eq, not_true_eq_false, and_false, or_false]
    refine and_congr_right fun heq => ?_
    rw [heq, eq_comm]
  · have hother : (s.register new).probes.lookup spec.key = s.probes.lookup spec.key := by
      rw [Scheduler.register_of_started hstarted, lookup_insert_ite, if_neg (Ne.symm hkey),
        Scheduler.lookup_unregister, if_neg (Ne.symm hkey)]
    have hne : new ≠ spec := fun heq => hkey (heq ▸ rfl)
    simp [Holds, hother, hne, hkey]

/-! ## Every order of the sections -/

/-- What holds after a sequence of sections. -/
structure Kept (sections : List Section) (s : Service) : Prop where
  owned : Owned s.scheduler s.created
  started : s.scheduler.started = true ↔ .start ∈ sections
  waiting : .start ∈ sections ↔ s.startCall ≠ .notYet
  returned : s.startCall = .returned → s.cancelled = true
  holds_iff : s.startCall ≠ .returned → ∀ spec interval, Holds s.scheduler spec interval ↔
    Standing sections spec ∧ interval = spec.intervalMs * 1000000

theorem kept_new : Kept [] .new where
  owned := owned_new
  started := by simp [Service.new, Scheduler.new]
  waiting := by simp [Service.new]
  returned h := nomatch h
  holds_iff _ spec interval := by
    refine iff_of_false (fun h => ?_) fun h => nomatch h.1.start_mem
    obtain ⟨stop, hlookup⟩ := h
    cases hlookup

theorem Kept.step {sections : List Section} {s s' : Service} {next : Section}
    (h : Kept sections s) (hstep : s.step next = some s') : Kept (sections ++ [next]) s' := by
  cases next with
  | start =>
      simp only [Service.step, Option.ite_none_right_eq_some, Option.some.injEq] at hstep
      obtain ⟨hnotYet, rfl⟩ := hstep
      refine ⟨⟨h.owned.once, h.owned.fresh, h.owned.made, h.owned.distinct, h.owned.held,
        h.owned.open_iff⟩, ?_, ?_, nofun, ?_⟩
      · simp [Scheduler.start]
      · simp
      · intro _ spec interval
        show Holds s.scheduler spec interval ↔ _
        rw [standing_snoc, h.holds_iff (by simp [hnotYet]) spec interval]
        simp [about]
  | cancel =>
      cases hstep
      refine ⟨h.owned, ?_, ?_, fun _ => rfl, ?_⟩
      · simpa using h.started
      · simpa using h.waiting
      · intro hreturned spec interval
        rw [standing_snoc]
        simpa [about] using h.holds_iff hreturned spec interval
  | shutdown =>
      simp only [Service.step, Option.ite_none_right_eq_some, Option.some.injEq] at hstep
      obtain ⟨⟨hwaiting, hcancelled⟩, rfl⟩ := hstep
      have hmem : .start ∈ sections := h.waiting.mpr (by simp [hwaiting])
      refine ⟨h.owned.shutdown, ?_, ?_, fun _ => hcancelled, fun hne => absurd rfl hne⟩
      · simpa [Scheduler.shutdown] using h.started
      · simp [hmem]
  | register spec =>
      cases hstep
      refine ⟨h.owned.register spec, ?_, ?_, h.returned, ?_⟩
      · have hkeeps : (s.scheduler.register spec).started = s.scheduler.started := by
          cases hstarted : s.scheduler.started with
          | false => simp [Scheduler.register_of_not_started hstarted, hstarted]
          | true => simp [Scheduler.register_of_started hstarted, hstarted]
        simpa [hkeeps] using h.started
      · simpa using h.waiting
      · intro hreturned old interval
        rw [standing_snoc]
        have hold := h.holds_iff hreturned old interval
        cases hstarted : s.scheduler.started with
        | false =>
            have hno : .start ∉ sections := by rw [← h.started, hstarted]; simp
            rw [Scheduler.register_of_not_started hstarted, holds_unregister, hold]
            simp only [about, hno, and_false, false_or, ne_eq, Option.some.injEq]
            exact and_right_comm
        | true =>
            have hmem : .start ∈ sections := h.started.mp hstarted
            rw [holds_register hstarted, hold]
            simp only [about, hmem, and_true, ne_eq, Option.some.injEq, Section.register.injEq,
              or_and_right, and_right_comm]
  | unregister key =>
      cases hstep
      refine ⟨h.owned.unregister key, ?_, ?_, h.returned, ?_⟩
      · simpa using h.started
      · simpa using h.waiting
      · intro hreturned spec interval
        rw [standing_snoc, holds_unregister, h.holds_iff hreturned spec interval]
        simp only [about, reduceCtorEq, false_and, false_or, ne_eq, Option.some.injEq]
        exact and_right_comm

theorem kept_of_run {sections : List Section} {s : Service}
    (hrun : Service.run sections = some s) : Kept sections s :=
  Machine.run_invariant kept_new (fun _ _ _ _ => Kept.step) hrun

/-- After every sequence of sections: no stop channel was closed twice; a scheduled probe
is unstopped exactly when it is the entry of its key, so there is at most one for a key;
and while `Start` waits, the map holds exactly the standing registrations. -/
theorem bookkeeping {sections : List Section} {s : Service}
    (hrun : Service.run sections = some s) :
    s.scheduler.closes.Nodup ∧
      (∀ p ∈ s.created,
        p.stop ∉ s.scheduler.closes ↔ s.scheduler.probes.lookup p.spec.key = some p) ∧
      (∀ p ∈ s.created, ∀ q ∈ s.created, p.spec.key = q.spec.key →
        p.stop ∉ s.scheduler.closes → q.stop ∉ s.scheduler.closes → p = q) ∧
      (.start ∈ sections → s.cancelled = false → ∀ key,
        ((∃ p, s.scheduler.probes.lookup key = some p) ↔
          ∃ spec, spec.key = key ∧ Standing sections spec) ∧
        ∀ p, s.scheduler.probes.lookup key = some p →
          Standing sections p.spec ∧ p.interval = p.spec.intervalMs * 1000000) := by
  have h := kept_of_run hrun
  refine ⟨h.owned.once, h.owned.open_iff, ?_, ?_⟩
  · intro p hp q hq hkey hopenP hopenQ
    have hlookupP := (h.owned.open_iff p hp).mp hopenP
    have hlookupQ := (h.owned.open_iff q hq).mp hopenQ
    rw [hkey, hlookupQ] at hlookupP
    exact (Option.some.inj hlookupP).symm
  · intro _ hcancelled key
    have hreturned : s.startCall ≠ .returned := by
      intro heq
      rw [h.returned heq] at hcancelled
      cases hcancelled
    have hentry : ∀ p, s.scheduler.probes.lookup key = some p →
        Standing sections p.spec ∧ p.interval = p.spec.intervalMs * 1000000 := by
      intro p hp
      have hkey := (h.owned.held key p hp).2
      exact (h.holds_iff hreturned p.spec p.interval).mp ⟨p.stop, by rw [hkey, hp]⟩
    refine ⟨⟨?_, ?_⟩, hentry⟩
    · rintro ⟨p, hp⟩
      exact ⟨p.spec, (h.owned.held key p hp).2, (hentry p hp).1⟩
    · rintro ⟨spec, rfl, hstanding⟩
      obtain ⟨stop, hlookup⟩ := (h.holds_iff hreturned spec _).mpr ⟨hstanding, rfl⟩
      exact ⟨_, hlookup⟩

/-- A spec of the HTTPProbe `default/web` with the given interval. -/
def webEvery (intervalMs : Int) : SpecUpdate where
  kind := .httpProbe
  name := "web"
  ns := "default"
  intervalMs := intervalMs

/-- The probe is registered, and registered again with another interval. -/
def replaced : List Section :=
  [.start, .register (webEvery 30000), .register (webEvery 60000)]

theorem bookkeeping_replaced :
    ∃ s, Service.run replaced = some s ∧ s.scheduler.closes.Nodup ∧
      ∃ p, s.scheduler.probes.lookup ⟨.httpProbe, ⟨"default", "web"⟩⟩ = some p ∧
        Standing replaced p.spec := by
  refine ⟨_, rfl, (bookkeeping (show Service.run replaced = some _ from rfl)).1, ?_⟩
  have hkept := (bookkeeping (show Service.run replaced = some _ from rfl)).2.2.2
    (by simp [replaced]) rfl ⟨.httpProbe, ⟨"default", "web"⟩⟩
  have hstanding : Standing replaced (webEvery 60000) :=
    ⟨[.start, .register (webEvery 30000)], [], rfl, by simp, fun _ h => nomatch h⟩
  obtain ⟨p, hp⟩ := hkept.1.mpr ⟨webEvery 60000, rfl, hstanding⟩
  exact ⟨p, hp, (hkept.2 p hp).1⟩

/-- The first of the two channels is closed, once. -/
example : (Service.run replaced).map (·.scheduler.closes) = some {0} := by decide +kernel

end SyntheticsOperator.Proofs.Scheduling
