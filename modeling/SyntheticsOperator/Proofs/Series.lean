import SyntheticsOperator.Proofs.Identity
import SyntheticsOperator.Proofs.MetricLabels

/-!
# Every observation has its own time series

The exporter keeps one value for an instrument and a set of attributes, the last one that was
observed.  Two resources never write the same series.  A resource writes one twice exactly when
two of its assertions have one name and one expression, or two cases of a Playwright test have
one suite and one title.

* `distinct_append`: blocks with different instruments;
* `identity_of_attrs`: the attributes of an observation name its resource;
* `filed_run`: what every history keeps true of the store.
-/

namespace SyntheticsOperator.Proofs.Series

open SyntheticsOperator.Api
open SyntheticsOperator.Heartbeat
open SyntheticsOperator.Metrics
open SyntheticsOperator.Metrics.Store
open SyntheticsOperator.MetricsConsumer
open SyntheticsOperator.Proofs.Identity (entries)
open SyntheticsOperator.Proofs.MetricLabels
open SyntheticsOperator.Proofs.Tombstone (sameAt_handle)
open SyntheticsOperator.Results (StringMap)
open SyntheticsOperator.Support

/-- The instrument and the attributes, in any order. -/
def series (o : Observation) : Instrument × Multiset KeyValue := (o.instrument, o.attrs)

/-! ## The observations of one resource -/

/-- No two observations are of one series. -/
def Distinct (l : List Observation) : Prop := (l.map series).Nodup

/-- The observations are of these instruments. -/
def Uses (l : List Observation) (instruments : List Instrument) : Prop :=
  ∀ o ∈ l, o.instrument ∈ instruments

section Blocks

variable {l l' : List Observation} {is is' : List Instrument} {attrs : List KeyValue}

theorem Uses.append (h : Uses l is) (h' : Uses l' is') : Uses (l ++ l') (is ++ is') := by
  intro o ho
  rcases List.mem_append.mp ho with ho | ho
  · exact List.mem_append_left _ (h o ho)
  · exact List.mem_append_right _ (h' o ho)

theorem uses_of_instruments (h : l.map Observation.instrument = is) : Uses l is := by
  intro o ho
  rw [← h]
  exact List.mem_map_of_mem ho

theorem uses_map {α : Type} (xs : List α) (instrument : Instrument) (value : α → ℚ)
    (own : α → List KeyValue) :
    Uses (xs.map fun x => ⟨instrument, value x, own x⟩) [instrument] := by
  intro o ho
  obtain ⟨x, -, rfl⟩ := List.mem_map.mp ho
  exact List.mem_singleton_self _

theorem disjoint_series (h : Uses l is) (h' : Uses l' is') (hdisjoint : ∀ i ∈ is, i ∉ is') :
    List.Disjoint (l.map series) (l'.map series) := by
  intro x hx hx'
  obtain ⟨o, ho, rfl⟩ := List.mem_map.mp hx
  obtain ⟨o', ho', heq⟩ := List.mem_map.mp hx'
  have hinstrument : o'.instrument = o.instrument := congrArg Prod.fst heq
  apply hdisjoint o.instrument (h o ho)
  rw [← hinstrument]
  exact h' o' ho'

theorem distinct_append (is is' : List Instrument) (h : Uses l is) (h' : Uses l' is')
    (hdisjoint : ∀ i ∈ is, i ∉ is') :
    Distinct (l ++ l') ↔ Distinct l ∧ Distinct l' := by
  rw [Distinct, List.map_append, List.nodup_append']
  constructor
  · exact fun hall => ⟨hall.1, hall.2.1⟩
  · exact fun hall => ⟨hall.1, hall.2, disjoint_series h h' hdisjoint⟩

theorem distinct_of_instruments (h : (l.map Observation.instrument).Nodup) : Distinct l := by
  have hmap : l.map Observation.instrument = (l.map series).map Prod.fst := by
    rw [List.map_map]
    rfl
  rw [hmap] at h
  exact h.of_map _

/-- Observations of one instrument are told apart by their own attributes. -/
theorem distinct_map_iff {α : Type} {xs : List α} (instrument : Instrument) (value : α → ℚ)
    (own : α → List KeyValue) :
    Distinct (xs.map fun x => ⟨instrument, value x, attrs ++ own x⟩) ↔
      (xs.map fun x => (own x : Multiset KeyValue)).Nodup := by
  have hinjective : Function.Injective fun m : Multiset KeyValue =>
      (instrument, (attrs : Multiset KeyValue) + m) := by
    intro m m' heq
    exact Multiset.add_right_inj.mp (congrArg Prod.snd heq)
  rw [← List.nodup_map_iff hinjective, Distinct, List.map_map, List.map_map]
  rfl

theorem perm_pair {k k' a a' b b' : String} (hne : k ≠ k')
    (h : [attrString k a, attrString k' b].Perm [attrString k a', attrString k' b']) :
    (a, b) = (a', b') := by
  have ha : attrString k a ∈ [attrString k a', attrString k' b'] := h.subset (by simp)
  have hb : attrString k' b ∈ [attrString k a', attrString k' b'] := h.subset (by simp)
  have ha' : a = a' := by simpa [attrString, hne] using ha
  have hb' : b = b' := by simpa [attrString, hne.symm] using hb
  rw [ha', hb']

/-- Two attributes of their own are distinct together. -/
theorem distinct_map_pair {α : Type} {xs : List α} (instrument : Instrument) (value : α → ℚ)
    {k k' : String} (hne : k ≠ k') (f g : α → String) :
    Distinct (xs.map fun x => ⟨instrument, value x, attrs ++ [attrString k (f x),
      attrString k' (g x)]⟩) ↔ (xs.map fun x => (f x, g x)).Nodup := by
  have hinjective : Function.Injective fun ab : String × String =>
      ([attrString k ab.1, attrString k' ab.2] : Multiset KeyValue) :=
    fun _ _ heq => perm_pair hne (Multiset.coe_eq_coe.mp heq)
  rw [distinct_map_iff, ← List.nodup_map_iff hinjective, List.map_map]
  rfl

theorem uses_ite {c : Prop} [Decidable c] (h : Uses l is) : Uses (if c then l else []) is :=
  forall_mem_ite h

theorem uses_suppressed (s : Store) (now : Time) (gauge : Instrument) (kind : Kind)
    (name : NamespacedName) (result : Result) :
    Uses (s.observeSuppressed now gauge attrs kind name result) [gauge] := by
  intro o ho
  obtain ⟨dep, -, rfl⟩ := mem_observeSuppressed ho
  exact List.mem_singleton_self _

theorem distinct_suppressed (s : Store) (now : Time) (gauge : Instrument) (kind : Kind)
    (name : NamespacedName) (result : Result) :
    Distinct (s.observeSuppressed now gauge attrs kind name result) := by
  unfold observeSuppressed
  split
  · split
    · exact List.nodup_singleton _
    · exact List.nodup_nil
  · exact List.nodup_nil

theorem uses_heads (s : Store) (now : Time) (gauge : Instrument) (kind : Kind)
    (name : NamespacedName) (result : Result) (h : l.map Observation.instrument = is) :
    Uses (l ++ s.observeSuppressed now gauge attrs kind name result) (is ++ [gauge]) :=
  (uses_of_instruments h).append (uses_suppressed s now gauge kind name result)

/-- What all resources of a family emit: one observation for each of some instruments, and
perhaps one that they are suppressed. -/
theorem distinct_heads (s : Store) (now : Time) (gauge : Instrument) (kind : Kind)
    (name : NamespacedName) (result : Result) (h : l.map Observation.instrument = is)
    (hnodup : is.Nodup) (hgauge : ∀ i ∈ is, i ∉ [gauge]) :
    Distinct (l ++ s.observeSuppressed now gauge attrs kind name result) := by
  rw [distinct_append is [gauge] (uses_of_instruments h)
    (uses_suppressed s now gauge kind name result) hgauge]
  rw [← h] at hnodup
  exact ⟨distinct_of_instruments hnodup, distinct_suppressed s now gauge kind name result⟩

end Blocks

/-! ### Probes -/

def probeHeads (attrs : List KeyValue) (state : ProbeState) : List Observation :=
  [⟨.probeGauge, state.result.successValue, attrs⟩,
    ⟨.probeResultInfo, 1, attrs ++ [attrString "result" state.result.text,
      attrString "failed_assertion" state.failedAssertion]⟩,
    ⟨.probeDurationGauge, state.durationMilliseconds, attrs⟩,
    ⟨.probeLastRunGauge, state.lastRunTimestamp, attrs⟩]

theorem probeHeads_instruments (attrs : List KeyValue) (state : ProbeState) :
    (probeHeads attrs state).map Observation.instrument =
      [.probeGauge, .probeResultInfo, .probeDurationGauge, .probeLastRunGauge] := rfl

/-- The instruments of one kind of probe. -/
def kindInstruments : List Instrument :=
  [.httpInfoGauge, .httpStatusCodeGauge, .httpVersionGauge, .tlsCertExpiryGauge,
    .httpPhaseDurationGauge, .dnsResponseMsGauge, .dnsAnswerCountGauge, .dnsAuthorityCountGauge,
    .dnsAdditionalCountGauge, .dnsFirstAnswerValueGauge, .dnsFirstAnswerTypeGauge, .tcpInfoGauge]

section Probes

variable (attrs : List KeyValue) (state : ProbeState)

theorem uses_observeHTTP : Uses (observeHTTP attrs state) kindInstruments := by
  intro o ho
  unfold observeHTTP at ho
  simp only [List.mem_append, List.mem_cons, List.mem_map, List.not_mem_nil, or_false,
    List.mem_ite_nil_right] at ho
  rcases ho with (((rfl | rfl | rfl) | ⟨-, rfl⟩) | ⟨ph, -, rfl⟩)
  all_goals simp [kindInstruments]

theorem distinct_observeHTTP : Distinct (observeHTTP attrs state) := by
  unfold observeHTTP
  rw [distinct_append (kindInstruments.take 4) [.httpPhaseDurationGauge]]
  · constructor
    · apply distinct_of_instruments
      split
      · simp
      · simp
    · rw [distinct_map_iff]
      simp [attrString]
  · intro o ho
    simp only [List.mem_append, List.mem_cons, List.not_mem_nil, or_false,
      List.mem_ite_nil_right] at ho
    rcases ho with ((rfl | rfl | rfl) | ⟨-, rfl⟩)
    all_goals simp [kindInstruments]
  · exact uses_map _ _ _ _
  · decide

theorem uses_observeDNS : Uses (observeDNS attrs state) kindInstruments := by
  intro o ho
  unfold observeDNS at ho
  simp only [List.mem_append, List.mem_cons, List.not_mem_nil, or_false,
    List.mem_ite_nil_right] at ho
  rcases ho with (((rfl | rfl | rfl | rfl) | ⟨-, rfl⟩) | ⟨-, rfl⟩)
  all_goals simp [kindInstruments]

theorem distinct_observeDNS : Distinct (observeDNS attrs state) := by
  apply distinct_of_instruments
  unfold observeDNS
  split
  · split
    · simp
    · simp
  · split
    · simp
    · simp

/-- The observations that a probe of one kind adds. -/
def observeKind (kind : Kind) : List Observation :=
  match kind with
  | .httpProbe => observeHTTP attrs state
  | .dnsProbe => observeDNS attrs state
  | .tcpProbe => observeTCP attrs
  | _ => []

theorem uses_observeKind (kind : Kind) : Uses (observeKind attrs state kind) kindInstruments := by
  unfold observeKind
  split
  · exact uses_observeHTTP attrs state
  · exact uses_observeDNS attrs state
  · exact List.forall_mem_singleton.mpr (by simp [kindInstruments])
  · exact List.forall_mem_nil _

theorem distinct_observeKind (kind : Kind) : Distinct (observeKind attrs state kind) := by
  unfold observeKind
  split
  · exact distinct_observeHTTP attrs state
  · exact distinct_observeDNS attrs state
  · exact List.nodup_singleton _
  · exact List.nodup_nil

/-- One observation for each assertion. -/
def observeAssertions : List Observation :=
  state.assertionResults.map fun ar =>
    ⟨.assertionResultGauge, ar.result,
      attrs ++ [attrString "assertion" ar.name, attrString "expr" ar.expr]⟩

theorem uses_observeAssertions :
    Uses (observeAssertions attrs state) [.assertionResultGauge] :=
  uses_map _ _ _ _

variable (s : Store) (now : Time) (name : NamespacedName)

def observeShared : List Observation :=
  probeHeads attrs state ++
    s.observeSuppressed now .probeSuppressedGauge attrs (probeKind state) name state.result

def sharedInstruments : List Instrument :=
  [.probeGauge, .probeResultInfo, .probeDurationGauge, .probeLastRunGauge] ++
    [.probeSuppressedGauge]

theorem uses_observeShared : Uses (observeShared attrs state s now name) sharedInstruments :=
  uses_heads s now _ _ name _ (probeHeads_instruments attrs state)

theorem observeProbe_eq : s.observeProbe now name state =
    observeShared (probeAttrs s name state) state s now name ++
      observeAssertions (probeAttrs s name state) state ++
      observeKind (probeAttrs s name state) state (probeKind state) := rfl

def probeInstruments : List Instrument :=
  sharedInstruments ++ [.assertionResultGauge] ++ kindInstruments

theorem uses_observeProbe : Uses (s.observeProbe now name state) probeInstruments := by
  rw [observeProbe_eq]
  exact ((uses_observeShared _ _ _ _ _).append (uses_observeAssertions _ _)).append
    (uses_observeKind _ _ _)

theorem distinct_observeProbe :
    Distinct (s.observeProbe now name state) ↔
      (state.assertionResults.map fun ar => (ar.name, ar.expr)).Nodup := by
  have hshared : Distinct (observeShared (probeAttrs s name state) state s now name) :=
    distinct_heads s now _ _ name _ (probeHeads_instruments _ state) (by decide) (by decide)
  have hkind := distinct_observeKind (probeAttrs s name state) state (probeKind state)
  rw [observeProbe_eq, distinct_append _ _
    ((uses_observeShared _ _ _ _ _).append (uses_observeAssertions _ _)) (uses_observeKind _ _ _)
    (by decide), distinct_append _ _ (uses_observeShared _ _ _ _ _) (uses_observeAssertions _ _)
    (by decide), observeAssertions, distinct_map_pair _ _ (by decide)]
  simp only [hshared, hkind, true_and, and_true]

end Probes

/-! ### Tests and Heartbeats -/

section Tests

variable (attrs : List KeyValue) (state : TestState) (s : Store) (now : Time)
  (name : NamespacedName)

def caseInstruments : List Instrument :=
  [.playwrightCasePassed] ++ [.playwrightCaseDurationMs] ++
    [.playwrightCasesTotal, .playwrightCasesPassed, .playwrightCasesFailed]

/-- The observations of a pair for each case, by instrument. -/
theorem flatMap_pair_perm {α β : Type*} (xs : List α) (f g : α → β) :
    (xs.flatMap fun x => [f x, g x]).Perm (xs.map f ++ xs.map g) := by
  induction xs with
  | nil => exact .nil
  | cons x xs ih =>
      simp only [List.flatMap_cons, List.map_cons, List.cons_append, List.nil_append]
      exact ((ih.cons (g x)).trans List.perm_middle.symm).cons (f x)

def observeCases : List Observation :=
  let caseAttrs (tc : Results.TestCase) :=
    attrs ++ [attrString "suite" tc.suite, attrString "test" tc.test]
  (state.playwrightTests.map fun tc =>
      ⟨.playwrightCasePassed, if tc.passed then 1 else 0, caseAttrs tc⟩) ++
    (state.playwrightTests.map fun tc =>
      ⟨.playwrightCaseDurationMs, tc.durationMs, caseAttrs tc⟩)

def observeTotals : List Observation :=
  [⟨.playwrightCasesTotal, state.playwrightTests.length, attrs⟩,
    ⟨.playwrightCasesPassed, state.playwrightTests.countP (·.passed), attrs⟩,
    ⟨.playwrightCasesFailed, state.playwrightTests.countP (!·.passed), attrs⟩]

theorem observePlaywright_perm : (observePlaywright attrs state).Perm
    (observeCases attrs state ++ observeTotals attrs state) :=
  (flatMap_pair_perm _ _ _).append_right _

theorem uses_observeCases : Uses (observeCases attrs state)
    ([.playwrightCasePassed] ++ [.playwrightCaseDurationMs]) :=
  (uses_map _ _ _ _).append (uses_map _ _ _ _)

theorem uses_observeTotals : Uses (observeTotals attrs state)
    [.playwrightCasesTotal, .playwrightCasesPassed, .playwrightCasesFailed] :=
  uses_of_instruments rfl

theorem uses_observePlaywright : Uses (observePlaywright attrs state) caseInstruments := by
  intro o ho
  exact (uses_observeCases attrs state).append (uses_observeTotals attrs state) o
    ((observePlaywright_perm attrs state).subset ho)

theorem distinct_observePlaywright :
    Distinct (observePlaywright attrs state) ↔
      (state.playwrightTests.map fun tc => (tc.suite, tc.test)).Nodup := by
  have htotals : Distinct (observeTotals attrs state) :=
    distinct_of_instruments (by simp [observeTotals])
  rw [Distinct, ((observePlaywright_perm attrs state).map series).nodup_iff, ← Distinct,
    distinct_append _ _ (uses_observeCases attrs state) (uses_observeTotals attrs state)
    (by decide), observeCases, distinct_append _ _ (uses_map _ _ _ _) (uses_map _ _ _ _)
    (by decide), distinct_map_pair _ _ (by decide), distinct_map_pair _ _ (by decide)]
  simp only [htotals, and_self, and_true]

def testHeads : List Observation :=
  [⟨.testGauge, state.result.successValue, attrs⟩,
    ⟨.testResultInfo, 1, attrs ++ [attrString "result" state.result.text]⟩,
    ⟨.testDurationGauge, state.durationMilliseconds, attrs⟩,
    ⟨.testLastRunGauge, state.lastRunTimestamp, attrs⟩]

theorem testHeads_instruments : (testHeads attrs state).map Observation.instrument =
    [.testGauge, .testResultInfo, .testDurationGauge, .testLastRunGauge] := rfl

def testInstruments : List Instrument :=
  [.testGauge, .testResultInfo, .testDurationGauge, .testLastRunGauge] ++
    [.testSuppressedGauge] ++ caseInstruments

theorem observeTest_eq : s.observeTest now name state =
    testHeads (plainAttrs s state.kind name) state ++
      s.observeSuppressed now .testSuppressedGauge (plainAttrs s state.kind name) state.kind name
        state.result ++
      if state.kind = .playwrightTest then observePlaywright (plainAttrs s state.kind name) state
      else [] := rfl

theorem uses_observeTest : Uses (s.observeTest now name state) testInstruments := by
  rw [observeTest_eq]
  exact (uses_heads s now _ _ name _ (testHeads_instruments _ state)).append
    (uses_ite (uses_observePlaywright _ _))

theorem distinct_observeTest :
    Distinct (s.observeTest now name state) ↔
      (state.kind = .playwrightTest →
        (state.playwrightTests.map fun tc => (tc.suite, tc.test)).Nodup) := by
  have hheads : Distinct (testHeads (plainAttrs s state.kind name) state ++
      s.observeSuppressed now .testSuppressedGauge (plainAttrs s state.kind name) state.kind name
        state.result) :=
    distinct_heads s now _ _ name _ (testHeads_instruments _ state) (by decide) (by decide)
  rw [observeTest_eq, distinct_append _ _
    (uses_heads s now _ _ name _ (testHeads_instruments _ state))
    (uses_ite (uses_observePlaywright _ _)) (by decide)]
  split
  · rename_i hkind
    rw [distinct_observePlaywright, and_iff_right hheads, forall_prop_of_true hkind]
  · rename_i hkind
    rw [and_iff_right hheads, forall_prop_of_false hkind, iff_true]
    exact List.nodup_nil

def heartbeatHeads : List Instrument :=
  [.heartbeatGauge, .heartbeatResultInfo, .heartbeatLastReceived, .heartbeatPeriodSeconds,
    .heartbeatGraceSeconds, .heartbeatExitCodeGauge]

def heartbeatInstruments : List Instrument := heartbeatHeads ++ [.heartbeatSuppressedGauge]

theorem uses_observeHeartbeat (state : Lifecycle.State) :
    Uses (s.observeHeartbeat now name state) heartbeatInstruments := by
  unfold observeHeartbeat
  split
  · exact List.forall_mem_nil _
  · exact uses_heads s now _ _ name _ rfl

theorem distinct_observeHeartbeat (state : Lifecycle.State) :
    Distinct (s.observeHeartbeat now name state) := by
  unfold observeHeartbeat
  split
  · exact List.nodup_nil
  · exact distinct_heads s now _ _ name _ (show _ = heartbeatHeads from rfl) (by decide) (by decide)

end Tests

/-! ## The identity of a series -/

section Identity

variable {s : Store}

/-- The attributes of an observation name the resource that it was made for. -/
theorem identity_of_perm {kind kind' : Kind} {name name' : NamespacedName}
    {attrs attrs' : List KeyValue} (hkeys : (keys attrs).Nodup)
    (h : identityAttrs kind name ⊆ attrs) (h' : identityAttrs kind' name' ⊆ attrs')
    (hperm : attrs.Perm attrs') : kind.text = kind'.text ∧ name = name' := by
  have hvalue : ∀ {k v v' : String}, attrString k v ∈ identityAttrs kind name →
      attrString k v' ∈ identityAttrs kind' name' → v = v' := by
    intro k v v' hmem hmem'
    have heq : attrString k v = attrString k v' :=
      List.inj_on_of_nodup_map hkeys (h hmem) (hperm.symm.subset (h' hmem')) rfl
    simpa [attrString] using heq
  have hname : name.name = name'.name := hvalue (k := "name") (by simp [identityAttrs])
    (by simp [identityAttrs])
  have hns : name.ns = name'.ns := hvalue (k := "namespace") (by simp [identityAttrs])
    (by simp [identityAttrs])
  have hkind : kind.text = kind'.text := hvalue (k := "kind") (by simp [identityAttrs])
    (by simp [identityAttrs])
  refine ⟨hkind, ?_⟩
  cases name
  cases name'
  rw [NamespacedName.mk.injEq]
  exact ⟨hns, hname⟩

end Identity

/-- The series of the entries of one map, if each entry has its own identity. -/
theorem nodup_observeEach {V : Type} (entries : Finmap fun _ : CrKey => V)
    (observe : NamespacedName → V → List Observation)
    (hseparate : ∀ key key' state state', entries.lookup key = some state →
      entries.lookup key' = some state' → key ≠ key' →
      List.Disjoint ((observe key.name state).map series) ((observe key'.name state').map series)) :
    ((observeEach entries observe).map fun o => series o.2).Nodup ↔
      ∀ key state, entries.lookup key = some state → Distinct (observe key.name state) := by
  have hlist : ((observeEach entries observe).map fun o => series o.2) =
      entries.entries.bind fun e =>
        (((observe e.1.name e.2).map series : List _) : Multiset _) := by
    simp only [observeEach, Multiset.map_bind, Multiset.map_coe, List.map_map]
    rfl
  rw [hlist, Multiset.nodup_bind]
  constructor
  · intro h key state hlookup
    exact Multiset.coe_nodup.mp (h.1 ⟨key, state⟩ (Finmap.lookup_eq_some_iff.mp hlookup))
  · intro h
    constructor
    · intro e he
      exact Multiset.coe_nodup.mpr (h e.1 e.2 (Finmap.lookup_eq_some_iff.mpr he))
    · refine Multiset.Nodup.pairwise ?_ entries.nodupKeys.nodup
      intro e he e' he' hne
      have hlookup := Finmap.lookup_eq_some_iff.mpr he
      have hlookup' := Finmap.lookup_eq_some_iff.mpr he'
      have hkey : e.1 ≠ e'.1 := by
        intro hkey
        rw [hkey, hlookup'] at hlookup
        exact hne (Sigma.ext hkey (heq_of_eq (Option.some.inj hlookup).symm))
      exact (Multiset.coe_disjoint _ _).mpr (hseparate e.1 e'.1 e.2 e'.2 hlookup hlookup' hkey)

/-! ## Every history -/

/-- What the senders of messages guarantee: labels that the webhook has seen, and the kind of a
probe. -/
def Sane : Message → Prop
  | .spec msg => ∃ path, validateMetricLabels msg.metricLabels path = []
  | .probeResult msg => msg.kind.text ≠ ""
  | _ => True

/-- An entry is of the kind that it is filed under. -/
structure Filed (s : Store) : Prop where
  probes : ∀ key state, s.probes.lookup key = some state →
    state.kind = key.kind ∧ key.kind.text ≠ ""
  tests : ∀ key state, s.tests.lookup key = some state → state.kind = key.kind
  heartbeats : ∀ key state, s.heartbeats.lookup key = some state → key.kind = .heartbeat
  labels : ∀ key labels, s.metricLabels.lookup key = some labels →
    ∃ path, validateMetricLabels labels path = []

theorem filed_empty : Filed .empty where
  probes _ _ h := nomatch h
  tests _ _ h := nomatch h
  heartbeats _ _ h := nomatch h
  labels _ _ h := nomatch h

/-- The part of `Filed` that is about one identity. -/
structure FiledAt (key : CrKey) (e : Identity.Entries) : Prop where
  probe : ∀ state, e.probe = some state → state.kind = key.kind ∧ key.kind.text ≠ ""
  test : ∀ state, e.test = some state → state.kind = key.kind
  heartbeat : ∀ state, e.heartbeat = some state → key.kind = .heartbeat
  labels : ∀ labels, e.metricLabels = some labels → ∃ path, validateMetricLabels labels path = []

theorem filed_iff (s : Store) : Filed s ↔ ∀ key, FiledAt key (entries s key) := by
  constructor
  · exact fun h key => ⟨h.probes key, h.tests key, h.heartbeats key, h.labels key⟩
  · exact fun h => ⟨fun key => (h key).probe, fun key => (h key).test,
      fun key => (h key).heartbeat, fun key => (h key).labels⟩

theorem specState_of_ne (h : Option Lifecycle.State) {msg : Results.SpecUpdate}
    (hkind : msg.kind ≠ .heartbeat) : Identity.specState h msg = h := by
  unfold Identity.specState
  cases heq : msg.kind with
  | heartbeat => exact absurd heq hkind
  | _ => rfl

theorem FiledAt.handle {e : Identity.Entries} {m : Message} (hsane : Sane m)
    (h : FiledAt m.key e) : FiledAt m.key (e.handle m) := by
  cases m with
  | spec msg =>
      simp only [Identity.Entries.handle]
      split
      · constructor
        all_goals
          intro _ hnone
          cases hnone
      · refine ⟨h.probe, h.test, ?_, ?_⟩
        · intro state hstate
          by_contra hkind
          rw [specState_of_ne _ hkind] at hstate
          exact hkind (h.heartbeat state hstate)
        · intro labels hlabels
          simp only [Option.ite_none_left_eq_some, Option.some.injEq] at hlabels
          rw [← hlabels.2]
          exact hsane
  | probeResult msg =>
      refine ⟨?_, h.test, h.heartbeat, h.labels⟩
      intro state hstate
      rw [← Option.some.inj hstate]
      exact ⟨rfl, hsane⟩
  | testResult msg =>
      refine ⟨h.probe, ?_, h.heartbeat, h.labels⟩
      intro state hstate
      rw [← Option.some.inj hstate]
      rfl
  | ping now msg => exact ⟨h.probe, h.test, fun _ _ => rfl, h.labels⟩

theorem Filed.handle {s : Store} {m : Message} (hsane : Sane m) (h : Filed s) :
    Filed (handle s m) := by
  rw [filed_iff] at h ⊢
  intro key
  by_cases hkey : m.key = key
  · rw [← hkey, Identity.entries_handle_self]
    exact (h m.key).handle hsane
  · rw [Identity.entries_eq_of_sameAt (sameAt_handle s (Ne.symm hkey))]
    exact h key

theorem filed_run (messages : List Message) (hsane : ∀ m ∈ messages, Sane m) :
    Filed (run .empty messages) := by
  induction messages using List.reverseRecOn with
  | nil => exact filed_empty
  | append_singleton messages m ih =>
      rw [run_snoc]
      apply Filed.handle (hsane m (by simp))
      exact ih fun m' hm' => hsane m' (List.mem_append_left _ hm')

section Scrape

variable {s : Store} {now : Time} {key key' : CrKey}

theorem Filed.admitted (h : Filed s) (name : NamespacedName) : Admitted s name :=
  fun kind => h.labels ⟨kind, name⟩

/-- Observations for two identities are of different series. -/
theorem disjoint_of_identity {l l' : List Observation} (hne : key ≠ key')
    (hl : ∀ o ∈ l, (keys o.attrs).Nodup ∧ identityAttrs key.kind key.name ⊆ o.attrs)
    (hl' : ∀ o ∈ l', identityAttrs key'.kind key'.name ⊆ o.attrs) :
    List.Disjoint (l.map series) (l'.map series) := by
  intro x hx hx'
  obtain ⟨o, ho, rfl⟩ := List.mem_map.mp hx
  obtain ⟨o', ho', heq⟩ := List.mem_map.mp hx'
  obtain ⟨hkeys, hidentity⟩ := hl o ho
  have hperm : o'.attrs.Perm o.attrs := Multiset.coe_eq_coe.mp (congrArg Prod.snd heq)
  obtain ⟨hkind, hname⟩ := identity_of_perm hkeys hidentity (hl' o' ho') hperm.symm
  apply hne
  cases key
  cases key'
  rw [CrKey.mk.injEq]
  exact ⟨Kind.equivString.injective hkind, hname⟩

/-- Entries whose observations name them only have to be distinct one by one. -/
theorem nodup_of_identified {V : Type} {entries : Finmap fun _ : CrKey => V}
    {observe : NamespacedName → V → List Observation}
    (h : ∀ key state, entries.lookup key = some state → ∀ o ∈ observe key.name state,
      (keys o.attrs).Nodup ∧ identityAttrs key.kind key.name ⊆ o.attrs) :
    ((observeEach entries observe).map fun o => series o.2).Nodup ↔
      ∀ key state, entries.lookup key = some state → Distinct (observe key.name state) := by
  apply nodup_observeEach
  intro key key' state state' hstate hstate' hne
  exact disjoint_of_identity hne (h key state hstate) fun o ho => (h key' state' hstate' o ho).2

theorem identity_subset {attrs rest : List KeyValue} {o : Observation} {kind : Kind}
    {name : NamespacedName} (hattrs : attrs = identityAttrs kind name ++ rest)
    (h : Extends attrs o) : identityAttrs kind name ⊆ o.attrs := by
  obtain ⟨own, hown, -⟩ := h
  rw [hown, hattrs, List.append_assoc]
  exact List.subset_append_left _ _

theorem Filed.probeKind_eq (h : Filed s) {state : ProbeState}
    (hstate : s.probes.lookup key = some state) : probeKind state = key.kind := by
  obtain ⟨hkind, htext⟩ := h.probes key state hstate
  rw [probeKind, hkind, if_neg htext]

theorem observeProbe_identified (h : Filed s) (now : Time) {state : ProbeState}
    (hstate : s.probes.lookup key = some state) :
    ∀ o ∈ s.observeProbe now key.name state,
      (keys o.attrs).Nodup ∧ identityAttrs key.kind key.name ⊆ o.attrs := by
  intro o ho
  refine ⟨(observeProbe_layered s now _ state o ho).nodup (h.admitted _), ?_⟩
  have hextends := observeProbe_extends s now key.name state o ho
  rw [← h.probeKind_eq hstate]
  exact identity_subset (List.append_assoc _ _ _) hextends

theorem observeTest_identified (h : Filed s) (now : Time) {state : TestState}
    (hstate : s.tests.lookup key = some state) :
    ∀ o ∈ s.observeTest now key.name state,
      (keys o.attrs).Nodup ∧ identityAttrs key.kind key.name ⊆ o.attrs := by
  intro o ho
  refine ⟨(observeTest_layered s now _ state o ho).nodup (h.admitted _), ?_⟩
  rw [← h.tests key state hstate]
  exact identity_subset rfl (observeTest_extends s now key.name state o ho)

theorem observeHeartbeat_identified (h : Filed s) (now : Time) {state : Lifecycle.State}
    (hstate : s.heartbeats.lookup key = some state) :
    ∀ o ∈ s.observeHeartbeat now key.name state,
      (keys o.attrs).Nodup ∧ identityAttrs key.kind key.name ⊆ o.attrs := by
  intro o ho
  refine ⟨(observeHeartbeat_layered s now _ state o ho).nodup (h.admitted _), ?_⟩
  rw [h.heartbeats key state hstate]
  exact identity_subset rfl (observeHeartbeat_extends s now key.name state o ho)

/-- The instruments of the entries of a map. -/
theorem uses_observeEach {V : Type} {entries : Finmap fun _ : CrKey => V}
    {observe : NamespacedName → V → List Observation} {is : List Instrument}
    (h : ∀ name state, Uses (observe name state) is) :
    ∀ x ∈ (observeEach entries observe).map fun o => series o.2, x.1 ∈ is := by
  intro x hx
  obtain ⟨⟨key, o⟩, ho, rfl⟩ := Multiset.mem_map.mp hx
  obtain ⟨state, -, ho⟩ := mem_observeEach.mp ho
  exact h key.name state o ho

theorem disjoint_of_instruments {m m' : Multiset (Instrument × Multiset KeyValue)}
    {is is' : List Instrument} (h : ∀ x ∈ m, x.1 ∈ is) (h' : ∀ x ∈ m', x.1 ∈ is')
    (hdisjoint : ∀ i ∈ is, i ∉ is') : Disjoint m m' := by
  rw [Multiset.disjoint_left]
  exact fun hx hx' => hdisjoint _ (h _ hx) (h' _ hx')

theorem nodup_probes (h : Filed s) (now : Time) :
    ((observeEach s.probes (s.observeProbe now)).map fun o => series o.2).Nodup ↔
      ∀ key state, s.probes.lookup key = some state →
        (state.assertionResults.map fun ar => (ar.name, ar.expr)).Nodup := by
  rw [nodup_of_identified fun _ _ hstate => observeProbe_identified h now hstate]
  simp only [distinct_observeProbe]

theorem nodup_tests (h : Filed s) (now : Time) :
    ((observeEach s.tests (s.observeTest now)).map fun o => series o.2).Nodup ↔
      ∀ key state, s.tests.lookup key = some state → state.kind = .playwrightTest →
        (state.playwrightTests.map fun tc => (tc.suite, tc.test)).Nodup := by
  rw [nodup_of_identified fun _ _ hstate => observeTest_identified h now hstate]
  simp only [distinct_observeTest]

theorem nodup_heartbeats (h : Filed s) (now : Time) :
    ((observeEach s.heartbeats (s.observeHeartbeat now)).map fun o => series o.2).Nodup := by
  rw [nodup_of_identified fun _ _ hstate => observeHeartbeat_identified h now hstate]
  exact fun key state _ => distinct_observeHeartbeat s now key.name state

/-- The three families share no instrument. -/
theorem nodup_scrape_iff (now : Time) :
    ((s.scrape now).map fun o => series o.2).Nodup ↔
      ((observeEach s.probes (s.observeProbe now)).map fun o => series o.2).Nodup ∧
      ((observeEach s.tests (s.observeTest now)).map fun o => series o.2).Nodup ∧
      ((observeEach s.heartbeats (s.observeHeartbeat now)).map fun o => series o.2).Nodup := by
  have hprobes : ∀ x ∈ (observeEach s.probes (s.observeProbe now)).map fun o => series o.2,
      x.1 ∈ probeInstruments :=
    uses_observeEach fun name state => uses_observeProbe state s now name
  have htests : ∀ x ∈ (observeEach s.tests (s.observeTest now)).map fun o => series o.2,
      x.1 ∈ testInstruments :=
    uses_observeEach fun name state => uses_observeTest state s now name
  have hheartbeats : ∀ x ∈ (observeEach s.heartbeats (s.observeHeartbeat now)).map
      fun o => series o.2, x.1 ∈ heartbeatInstruments :=
    uses_observeEach fun name state => uses_observeHeartbeat s now name state
  rw [scrape, Multiset.map_add, Multiset.map_add, Multiset.nodup_add, Multiset.nodup_add,
    Multiset.disjoint_add_left]
  have hpt := disjoint_of_instruments hprobes htests (by decide)
  have hph := disjoint_of_instruments hprobes hheartbeats (by decide)
  have hth := disjoint_of_instruments htests hheartbeats (by decide)
  simp only [hpt, hph, hth, and_true, and_assoc]

end Scrape

/-- For every history of messages and at every time.  Two assertions with one name and one
expression, or two cases with one suite and one title, are the only way for a value to
overwrite another one. -/
theorem series_unique_iff (messages : List Message) (hsane : ∀ m ∈ messages, Sane m)
    (now : Time) :
    (((run .empty messages).scrape now).map fun o => series o.2).Nodup ↔
      (∀ key state, (run .empty messages).probes.lookup key = some state →
        (state.assertionResults.map fun ar => (ar.name, ar.expr)).Nodup) ∧
      (∀ key state, (run .empty messages).tests.lookup key = some state →
        state.kind = .playwrightTest →
        (state.playwrightTests.map fun tc => (tc.suite, tc.test)).Nodup) := by
  have hfiled := filed_run messages hsane
  rw [nodup_scrape_iff, nodup_probes hfiled, nodup_tests hfiled]
  exact and_congr_right fun _ => and_iff_left (nodup_heartbeats hfiled now)

/-- A probe with a label of its user, and a result with two assertions. -/
def labelledProbe : List Message :=
  [.spec { kind := .httpProbe, name := "web", ns := "default", generation := 1
           metricLabels := Finmap.singleton "team" "payments" },
    .probeResult
      { kind := .httpProbe, name := "web", ns := "default", timestamp := ⟨0⟩, result := "OK"
        assertionResults := [⟨"fast", "duration_ms < 500", 1⟩, ⟨"fast", "duration_ms < 900", 1⟩] }]

/-- One test that ran in two browsers: the two rows have one title. -/
def twoBrowsers : Message :=
  .testResult
    { kind := .playwrightTest, name := "login", ns := "default", success := true
      timestamp := ⟨0⟩, durationMs := 40
      tests := [{ suite := "login", test := "shows the form", passed := true, durationMs := 20 },
        { suite := "login", test := "shows the form", passed := false, durationMs := 20 }] }

/-- The rows of the test overwrite each other, the assertions of the probe do not. -/
theorem series_unique_labelled :
    (((run .empty labelledProbe).scrape ⟨0⟩).map fun o => series o.2).Nodup ∧
      ¬ (((run .empty (labelledProbe ++ [twoBrowsers])).scrape ⟨0⟩).map
        fun o => series o.2).Nodup := by
  have hprobe : ∀ m ∈ labelledProbe, Sane m := by
    intro m hm
    rcases List.mem_pair.mp hm with rfl | rfl
    · exact ⟨"spec", by decide +kernel⟩
    · show Kind.httpProbe.text ≠ ""
      decide
  have hboth : ∀ m ∈ labelledProbe ++ [twoBrowsers], Sane m := by
    intro m hm
    rcases List.mem_append.mp hm with hm | hm
    · exact hprobe m hm
    · rw [List.mem_singleton.mp hm]
      trivial
  constructor
  · rw [series_unique_iff labelledProbe hprobe]
    constructor
    · intro key state hstate
      by_cases hkey : key = ⟨.httpProbe, ⟨"default", "web"⟩⟩
      · subst hkey
        have hweb : (run .empty labelledProbe).probes.lookup
            ⟨.httpProbe, ⟨"default", "web"⟩⟩ = some _ := Finmap.lookup_insert _
        obtain rfl := Option.some.inj (hweb.symm.trans hstate)
        decide
      · have hnone : (run .empty labelledProbe).probes.lookup key = none :=
          Finmap.lookup_insert_of_ne _ hkey
        rw [hnone] at hstate
        cases hstate
    · intro key state hstate
      cases hstate
  · rw [series_unique_iff _ hboth]
    intro h
    have hcases := h.2 ⟨.playwrightTest, ⟨"default", "login"⟩⟩ _ (Finmap.lookup_insert _) rfl
    exact absurd hcases (by decide)

end SyntheticsOperator.Proofs.Series
