import SyntheticsOperator.Metrics.Observe
import SyntheticsOperator.Proofs.Suppression

/-!
# Suppression leaves an alert standing

A resource's health gauge is 0 exactly when the suppression walk calls it
failing.  In an acyclic graph some failing resource has no failing resource
below it, so the walk finds no reason to suppress that one.
-/

namespace SyntheticsOperator.Proofs.Alerting

open Relation
open SyntheticsOperator.Api
open SyntheticsOperator.Heartbeat
open SyntheticsOperator.Metrics
open SyntheticsOperator.Proofs.Suppression
open SyntheticsOperator.Support
open SyntheticsOperator.Support.Paths

/-! ## Series of a scrape -/

/-- The three metric families. -/
inductive Family where
  | probe
  | test
  | heartbeat

namespace Family

/-- `synthetics_probe`, `synthetics_test` and `synthetics_heartbeat`. -/
def gauge : Family → Instrument
  | probe => .probeGauge
  | test => .testGauge
  | heartbeat => .heartbeatGauge

/-- The `*_suppressed` gauge of a family. -/
def suppressed : Family → Instrument
  | probe => .probeSuppressedGauge
  | test => .testSuppressedGauge
  | heartbeat => .heartbeatSuppressedGauge

theorem gauge_ne_suppressed (f g : Family) : f.gauge ≠ g.suppressed := by
  cases f <;> cases g <;> decide

/-- The health and `*_suppressed` gauges. -/
def gauges : List Instrument :=
  [.probeGauge, .testGauge, .heartbeatGauge, .probeSuppressedGauge, .testSuppressedGauge,
    .heartbeatSuppressedGauge]

theorem gauge_mem (f : Family) : f.gauge ∈ gauges := by
  cases f <;> decide

theorem suppressed_mem (f : Family) : f.suppressed ∈ gauges := by
  cases f <;> decide

end Family

/-- The labels `name`, `namespace` and `kind` of an observation are those of
`key`; alert rules join the series on them. -/
def Labels (key : CrKey) (o : Observation) : Prop :=
  identityAttrs key.kind key.name <+: o.attrs

/-- The health gauge of `key` is emitted with value 0. -/
def Down (s : Store) (now : Time) (key : CrKey) : Prop :=
  ∃ o ∈ (s.scrape now).map Prod.snd,
    (∃ f : Family, o.instrument = f.gauge) ∧ o.value = 0 ∧ Labels key o

/-- A `*_suppressed` observation is emitted for `key`. -/
def Suppressed (s : Store) (now : Time) (key : CrKey) : Prop :=
  ∃ o ∈ (s.scrape now).map Prod.snd, (∃ f : Family, o.instrument = f.suppressed) ∧ Labels key o

theorem Labels.unique {key key' : CrKey} {o : Observation} (h : Labels key o)
    (h' : Labels key' o) : key = key' := by
  have heq : identityAttrs key.kind key.name = identityAttrs key'.kind key'.name :=
    List.IsPrefix.eq_of_length_le
      (List.prefix_of_prefix_length_le h h' (by simp [identityAttrs])) (by simp [identityAttrs])
  obtain ⟨kind, ns, name⟩ := key
  obtain ⟨kind', ns', name'⟩ := key'
  simp only [identityAttrs, attrString, List.cons.injEq, KeyValue.mk.injEq,
    AttrValue.string.injEq, true_and, and_true] at heq
  obtain ⟨rfl, rfl, hkind⟩ := heq
  rw [Kind.equivString.injective hkind]

/-! ## What is emitted for one entry -/

/-- An observation of neither kind of gauge, made under `attrs`. -/
structure Detail (attrs : List KeyValue) (o : Observation) : Prop where
  instrument : o.instrument ∉ Family.gauges
  attrs : attrs <+: o.attrs

/-- One of the observations that report a resource with the given result: its
health gauge, the outcome of the suppression walk, or a detail. -/
def Reported (s : Store) (now : Time) (family : Family) (attrs : List KeyValue) (key : CrKey)
    (result : Result) (o : Observation) : Prop :=
  o = ⟨family.gauge, result.successValue, attrs⟩ ∨
    o ∈ s.observeSuppressed now family.suppressed attrs key.kind key.name result ∨
    Detail attrs o

/-- `obs` reports a resource with the given result. -/
structure Reports (s : Store) (now : Time) (family : Family) (attrs : List KeyValue)
    (key : CrKey) (result : Result) (obs : List Observation) : Prop where
  identity : identityAttrs key.kind key.name <+: attrs
  gauge : ⟨family.gauge, result.successValue, attrs⟩ ∈ obs
  only : ∀ o ∈ obs, Reported s now family attrs key result o

theorem Reports.labels {s : Store} {now : Time} {family : Family} {attrs : List KeyValue}
    {key : CrKey} {result : Result} {obs : List Observation} {o : Observation}
    (h : Reports s now family attrs key result obs) (ho : o ∈ obs) : Labels key o := by
  refine h.identity.trans ?_
  rcases h.only o ho with rfl | hsuppressed | hdetail
  · exact List.prefix_refl attrs
  · obtain ⟨dep, -, rfl⟩ := Store.mem_observeSuppressed hsuppressed
    exact List.prefix_append _ _
  · exact hdetail.attrs

theorem detail_mk {attrs attrs' : List KeyValue} {instrument : Instrument} {value : ℚ} :
    Detail attrs ⟨instrument, value, attrs'⟩ ↔
      instrument ∉ Family.gauges ∧ attrs <+: attrs' :=
  ⟨fun h => ⟨h.1, h.2⟩, fun h => ⟨h.1, h.2⟩⟩

theorem observeHTTP_detail (attrs : List KeyValue) (state : ProbeState) :
    ∀ o ∈ Store.observeHTTP attrs state, Detail attrs o := by
  unfold Store.observeHTTP
  split <;> simp [detail_mk, Family.gauges]

theorem observeDNS_detail (attrs : List KeyValue) (state : ProbeState) :
    ∀ o ∈ Store.observeDNS attrs state, Detail attrs o := by
  unfold Store.observeDNS
  split <;> split <;> simp [detail_mk, Family.gauges]

theorem observeTCP_detail (attrs : List KeyValue) :
    ∀ o ∈ Store.observeTCP attrs, Detail attrs o := by
  simp [Store.observeTCP, detail_mk, Family.gauges]

theorem observePlaywright_detail (attrs : List KeyValue) (state : TestState) :
    ∀ o ∈ Store.observePlaywright attrs state, Detail attrs o := by
  intro o ho
  simp only [Store.observePlaywright, List.mem_append, List.mem_flatMap] at ho
  rcases ho with ⟨tc, _, ho⟩ | ho <;> revert o <;> simp [detail_mk, Family.gauges]

section Reported

variable {s : Store} {now : Time} {family : Family} {attrs more : List KeyValue} {key : CrKey}
  {result : Result} {instrument : Instrument} {value : ℚ}

theorem Reported.plain (h : instrument ∉ Family.gauges) :
    Reported s now family attrs key result ⟨instrument, value, attrs⟩ :=
  .inr (.inr ⟨h, List.prefix_refl attrs⟩)

theorem Reported.append (h : instrument ∉ Family.gauges) :
    Reported s now family attrs key result ⟨instrument, value, attrs ++ more⟩ :=
  .inr (.inr ⟨h, List.prefix_append attrs more⟩)

end Reported

/-- The attributes of a probe's observations. -/
def probeAttrs (s : Store) (name : NamespacedName) (state : ProbeState) : List KeyValue :=
  identityAttrs (Store.probeKind state) name ++ targetAttrs (Store.probeKind state) state ++
    s.userLabelsLocked (Store.probeKind state) name

theorem observeProbe_reports (s : Store) (now : Time) (name : NamespacedName)
    (state : ProbeState) :
    Reports s now .probe (probeAttrs s name state) ⟨Store.probeKind state, name⟩ state.result
      (s.observeProbe now name state) := by
  refine ⟨?_, ?_, ?_⟩
  · rw [probeAttrs, List.append_assoc]
    exact List.prefix_append _ _
  · simp [Store.observeProbe, probeAttrs, Family.gauge]
  · -- the four sections of the function, in its order
    simp only [Store.observeProbe, List.forall_mem_append]
    refine ⟨⟨⟨?_, fun o ho => .inr (.inl ho)⟩, ?_⟩, ?_⟩
    · simp only [List.forall_mem_cons]
      exact ⟨.inl rfl, .append (by decide), .plain (by decide), .plain (by decide), by simp⟩
    · simp only [List.forall_mem_map]
      exact fun ar _ => .append (by decide)
    · intro o ho
      refine .inr (.inr ?_)
      split at ho
      · exact observeHTTP_detail _ _ o ho
      · exact observeDNS_detail _ _ o ho
      · exact observeTCP_detail _ o ho
      · cases ho

/-- The attributes of the observations of a test or a heartbeat. -/
def plainAttrs (s : Store) (key : CrKey) : List KeyValue :=
  identityAttrs key.kind key.name ++ s.userLabelsLocked key.kind key.name

theorem observeTest_reports (s : Store) (now : Time) (name : NamespacedName)
    (state : TestState) :
    Reports s now .test (plainAttrs s ⟨state.kind, name⟩) ⟨state.kind, name⟩ state.result
      (s.observeTest now name state) := by
  refine ⟨List.prefix_append _ _, ?_, ?_⟩
  · simp [Store.observeTest, plainAttrs, Family.gauge]
  · simp only [Store.observeTest, List.forall_mem_append]
    refine ⟨⟨?_, fun o ho => .inr (.inl ho)⟩, ?_⟩
    · simp only [List.forall_mem_cons]
      exact ⟨.inl rfl, .append (by decide), .plain (by decide), .plain (by decide), by simp⟩
    · intro o ho
      refine .inr (.inr ?_)
      split at ho
      · exact observePlaywright_detail _ _ o ho
      · cases ho

theorem observeHeartbeat_reports (s : Store) (now : Time) (name : NamespacedName)
    {state : Lifecycle.State} (hactive : state.suspended = false) :
    Reports s now .heartbeat (plainAttrs s ⟨.heartbeat, name⟩) ⟨.heartbeat, name⟩
      (heartbeatResult (state.evaluate now)) (s.observeHeartbeat now name state) := by
  refine ⟨List.prefix_append _ _, ?_, ?_⟩
  · simp [Store.observeHeartbeat, hactive, plainAttrs, Family.gauge]
  · simp only [Store.observeHeartbeat, hactive, Bool.false_eq_true, if_false,
      List.forall_mem_append, List.forall_mem_cons]
    exact ⟨⟨.inl rfl, .append (by decide), .plain (by decide), .plain (by decide),
      .plain (by decide), .plain (by decide), by simp⟩, fun o ho => .inr (.inl ho)⟩

/-! ## Gauges and the walk's notion of failing -/

/-- Each map holds only kinds of its own family, and an entry's kind is that of
its key. -/
structure WellKeyed (s : Store) : Prop where
  probes : ∀ key state, s.probes.lookup key = some state →
    key.kind ∈ [Kind.httpProbe, .dnsProbe, .tcpProbe] ∧ state.kind = key.kind
  tests : ∀ key state, s.tests.lookup key = some state →
    key.kind ∈ [Kind.k6Test, .playwrightTest] ∧ state.kind = key.kind
  heartbeats : ∀ key state, s.heartbeats.lookup key = some state → key.kind = .heartbeat

theorem failing_probe {s : Store} {now : Time} {key : CrKey} {state : ProbeState}
    (hkind : key.kind ∈ [Kind.httpProbe, .dnsProbe, .tcpProbe])
    (hstate : s.probes.lookup key = some state) :
    Failing s now key ↔ state.result ≠ .ok := by
  obtain ⟨kind, name⟩ := key
  simp only [List.mem_cons, List.not_mem_nil, or_false] at hkind
  rcases hkind with rfl | rfl | rfl <;> simp [Failing, Store.isFailingLocked, hstate]

theorem failing_test {s : Store} {now : Time} {key : CrKey} {state : TestState}
    (hkind : key.kind ∈ [Kind.k6Test, .playwrightTest])
    (hstate : s.tests.lookup key = some state) :
    Failing s now key ↔ state.result ≠ .ok := by
  obtain ⟨kind, name⟩ := key
  simp only [List.mem_cons, List.not_mem_nil, or_false] at hkind
  rcases hkind with rfl | rfl <;> simp [Failing, Store.isFailingLocked, hstate]

theorem failing_heartbeat {s : Store} {now : Time} {key : CrKey} {state : Lifecycle.State}
    (hkind : key.kind = .heartbeat) (hstate : s.heartbeats.lookup key = some state)
    (hactive : state.suspended = false) :
    Failing s now key ↔ heartbeatResult (state.evaluate now) ≠ .ok := by
  obtain ⟨kind, name⟩ := key
  subst hkind
  simp [Failing, Store.isFailingLocked, hstate, hactive]

theorem finite_failing (s : Store) (now : Time) : {key | Failing s now key}.Finite := by
  refine (s.probes.keys ∪ s.tests.keys ∪ s.heartbeats.keys).finite_toSet.subset ?_
  intro key hkey
  simp only [Finset.coe_union, Set.mem_union, Finset.mem_coe, Finmap.mem_keys]
  rcases Failing.entry hkey with ⟨_, h⟩ | ⟨_, h⟩ | ⟨_, h, _⟩
  · exact .inl (.inl (Finmap.mem_of_lookup_eq_some h))
  · exact .inl (.inr (Finmap.mem_of_lookup_eq_some h))
  · exact .inr (Finmap.mem_of_lookup_eq_some h)

/-- Everything a scrape emits for `key` belongs to a report whose result is ok
exactly when `key` is not failing. -/
theorem scrape_reports {s : Store} {now : Time} (hkeys : WellKeyed s) {key : CrKey}
    {o : Observation} (ho : (key, o) ∈ s.scrape now) :
    ∃ family attrs result, ∃ obs : List Observation, Reports s now family attrs key result obs ∧
      o ∈ obs ∧ (∀ o' ∈ obs, (key, o') ∈ s.scrape now) ∧
      (Failing s now key ↔ result ≠ .ok) := by
  rcases Store.mem_scrape.mp ho with
    ⟨state, hstate, hobs⟩ | ⟨state, hstate, hobs⟩ | ⟨state, hstate, hobs⟩
  · obtain ⟨hkind, heq⟩ := hkeys.probes key state hstate
    have hprobeKind : Store.probeKind state = key.kind := by
      rw [Store.probeKind, heq, if_neg]
      simp only [List.mem_cons, List.not_mem_nil, or_false] at hkind
      rcases hkind with h | h | h <;> rw [h] <;> decide
    have hreports := observeProbe_reports s now key.name state
    rw [hprobeKind] at hreports
    exact ⟨_, _, _, _, hreports, hobs,
      fun o' ho' => Store.mem_scrape.mpr (.inl ⟨state, hstate, ho'⟩),
      failing_probe hkind hstate⟩
  · obtain ⟨hkind, heq⟩ := hkeys.tests key state hstate
    have hreports := observeTest_reports s now key.name state
    rw [heq] at hreports
    exact ⟨_, _, _, _, hreports, hobs,
      fun o' ho' => Store.mem_scrape.mpr (.inr (.inl ⟨state, hstate, ho'⟩)),
      failing_test hkind hstate⟩
  · have hkind := hkeys.heartbeats key state hstate
    have hactive : state.suspended = false := by
      by_contra hsuspended
      simp [Store.observeHeartbeat, hsuspended] at hobs
    have hreports := observeHeartbeat_reports s now key.name hactive
    rw [← hkind] at hreports
    exact ⟨_, _, _, _, hreports, hobs,
      fun o' ho' => Store.mem_scrape.mpr (.inr (.inr ⟨state, hstate, ho'⟩)),
      failing_heartbeat hkind hstate hactive⟩

theorem failing_scraped {s : Store} {now : Time} {key : CrKey} (h : Failing s now key) :
    ∃ o, (key, o) ∈ s.scrape now := by
  rcases h.entry with ⟨state, hstate⟩ | ⟨state, hstate⟩ | ⟨state, hstate, hactive⟩
  · exact ⟨_, Store.mem_scrape.mpr
      (.inl ⟨state, hstate, (observeProbe_reports s now key.name state).gauge⟩)⟩
  · exact ⟨_, Store.mem_scrape.mpr
      (.inr (.inl ⟨state, hstate, (observeTest_reports s now key.name state).gauge⟩))⟩
  · exact ⟨_, Store.mem_scrape.mpr
      (.inr (.inr ⟨state, hstate, (observeHeartbeat_reports s now key.name hactive).gauge⟩))⟩

theorem down_iff_failing {s : Store} (hkeys : WellKeyed s) (now : Time) (key : CrKey) :
    Down s now key ↔ Failing s now key := by
  constructor
  · rintro ⟨o, ho, ⟨f, hgauge⟩, hzero, hlabels⟩
    obtain ⟨⟨key', _⟩, hscrape, rfl⟩ := Multiset.mem_map.mp ho
    obtain ⟨family, attrs, result, obs, hreports, hobs, _, hfailing⟩ :=
      scrape_reports hkeys hscrape
    rw [hlabels.unique (hreports.labels hobs), hfailing]
    rcases hreports.only _ hobs with rfl | hsuppressed | hdetail
    · exact Result.successValue_eq_zero.mp hzero
    · obtain ⟨dep, -, heq⟩ := Store.mem_observeSuppressed hsuppressed
      have hinstrument := congrArg Observation.instrument heq
      exact absurd (hgauge.symm.trans hinstrument) (Family.gauge_ne_suppressed f family)
    · exact absurd (hgauge ▸ f.gauge_mem) hdetail.instrument
  · intro hfailing
    obtain ⟨o, ho⟩ := failing_scraped hfailing
    obtain ⟨family, attrs, result, obs, hreports, _, hscraped, hresult⟩ :=
      scrape_reports hkeys ho
    have hgauge := hscraped _ hreports.gauge
    refine ⟨_, Multiset.mem_map_of_mem Prod.snd hgauge, ⟨family, rfl⟩, ?_,
      hreports.labels hreports.gauge⟩
    exact Result.successValue_eq_zero.mpr (hresult.mp hfailing)

/-- A `*_suppressed` observation comes from an answer of the walk. -/
theorem Suppressed.isSome {s : Store} {now : Time} {key : CrKey} (hkeys : WellKeyed s)
    (h : Suppressed s now key) : (s.findUnhealthyDep now key.kind key.name).isSome = true := by
  obtain ⟨o, ho, ⟨f, hinstrument⟩, hlabels⟩ := h
  obtain ⟨⟨key', _⟩, hscrape, rfl⟩ := Multiset.mem_map.mp ho
  obtain ⟨family, attrs, result, obs, hreports, hobs, _⟩ := scrape_reports hkeys hscrape
  rw [hlabels.unique (hreports.labels hobs)]
  rcases hreports.only _ hobs with rfl | hsuppressed | hdetail
  · exact absurd hinstrument (Family.gauge_ne_suppressed family f)
  · obtain ⟨dep, hfind, -⟩ := Store.mem_observeSuppressed hsuppressed
    exact Option.isSome_of_eq_some hfind
  · exact absurd (hinstrument ▸ f.suppressed_mem) hdetail.instrument

/-! ## Some alert is left -/

/-- In every store with an acyclic depends graph: if a resource of a namespace is
down, some resource of that namespace is down and not suppressed. -/
theorem exists_down_not_suppressed (s : Store) (now : Time) (ns : String)
    (hkeys : WellKeyed s) (hacyclic : Acyclic (Needs s))
    (hdown : ∃ key : CrKey, key.name.ns = ns ∧ Down s now key) :
    ∃ key : CrKey, key.name.ns = ns ∧ Down s now key ∧ ¬ Suppressed s now key := by
  simp only [down_iff_failing hkeys] at hdown ⊢
  have hfinite : {key : CrKey | key.name.ns = ns ∧ Failing s now key}.Finite :=
    (finite_failing s now).subset fun _ h => h.2
  -- a failing resource of the namespace with no other one below it
  obtain ⟨key, ⟨hns, hfailing⟩, hlowest⟩ := hacyclic.exists_minimal hfinite hdown
  refine ⟨key, hns, hfailing, fun hsuppressed => ?_⟩
  obtain ⟨d, hd⟩ := Option.isSome_iff_exists.mp (hsuppressed.isSome hkeys)
  obtain ⟨_, hreach, hdfailing⟩ := findUnhealthyDep_sound hd
  exact hlowest (d.key key.name.ns) ⟨hns, hdfailing⟩ hreach

theorem twoHops_wellKeyed : WellKeyed twoHops where
  probes key state hstate := by
    have hall : ∀ e ∈ twoHops.probes.entries,
        e.1.kind ∈ [Kind.httpProbe, .dnsProbe, .tcpProbe] ∧ e.2.kind = e.1.kind := by
      decide
    exact hall ⟨key, state⟩ (Finmap.lookup_eq_some_iff.mp hstate)
  tests _ _ hstate := by cases hstate
  heartbeats _ _ hstate := by cases hstate

theorem twoHops_down_not_suppressed :
    Down twoHops ⟨0⟩ (probeKey "web") ∧
      ∃ key : CrKey, key.name.ns = "default" ∧ Down twoHops ⟨0⟩ key ∧
        ¬ Suppressed twoHops ⟨0⟩ key := by
  have hweb : Down twoHops ⟨0⟩ (probeKey "web") :=
    (down_iff_failing twoHops_wellKeyed ⟨0⟩ (probeKey "web")).mpr (by decide)
  exact ⟨hweb, exists_down_not_suppressed twoHops ⟨0⟩ "default" twoHops_wellKeyed
    (acyclic_of_rank hopsBelow hopsBelow_lt) ⟨probeKey "web", rfl, hweb⟩⟩

end SyntheticsOperator.Proofs.Alerting
