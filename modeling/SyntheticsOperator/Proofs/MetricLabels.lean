import SyntheticsOperator.Api.Webhooks
import SyntheticsOperator.Metrics.Observe

/-!
# User labels among operator labels

Every observation has the attributes of its resource, the user labels of that resource and
attributes of its own, in this order.  The keys of the first part are in order among
`resourceKeys`, those of the last among `ownKeys`, and the webhook refuses all of them to
users.
-/

namespace SyntheticsOperator.Proofs.MetricLabels

open SyntheticsOperator.Api
open SyntheticsOperator.Heartbeat
open SyntheticsOperator.Metrics
open SyntheticsOperator.Metrics.Store
open SyntheticsOperator.Results (StringMap)
open SyntheticsOperator.Support

/-- The keys the attributes of a resource have. -/
def resourceKeys : List String :=
  ["name", "namespace", "kind", "url", "host", "port", "query", "resolver"]

/-- The keys single observations add. -/
def ownKeys : List String :=
  ["result", "failed_assertion", "unhealthy_dependency", "unhealthy_dependency_kind", "assertion",
    "expr", "method", "phase", "value", "type", "suite", "test"]

theorem nodup_operatorKeys : (resourceKeys ++ ownKeys).Nodup := by decide

theorem isSystemLabel_operatorKeys : ∀ key ∈ resourceKeys ++ ownKeys, isSystemLabel key = true := by
  decide

/-- The keys of a list of attributes. -/
def keys (attrs : List KeyValue) : List String := attrs.map KeyValue.key

/-! ## User labels -/

/-- The label maps of the resources of this name have passed the webhook. -/
def Admitted (s : Store) (name : NamespacedName) : Prop :=
  ∀ kind labels, s.metricLabels.lookup ⟨kind, name⟩ = some labels →
    ∃ path, validateMetricLabels labels path = []

theorem not_isSystemLabel {labels : StringMap} {path key : String}
    (h : validateMetricLabels labels path = []) (hkey : key ∈ labels) :
    isSystemLabel key = false := by
  have hnone := (validateMetricLabels_eq_nil_iff labels path).mp h key hkey
  cases hsystem : isSystemLabel key with
  | false => rfl
  | true =>
      simp only [validateMetricLabel, hsystem, if_true] at hnone
      split at hnone
      · cases hnone
      · split at hnone
        · cases hnone
        · cases hnone

theorem keys_userLabelsLocked (s : Store) (kind : Kind) (name : NamespacedName) :
    keys (s.userLabelsLocked kind name) =
      ((s.metricLabels.lookup ⟨kind, name⟩).getD ∅).keys.sort (· ≤ ·) := by
  simp only [keys, userLabelsLocked, List.map_map]
  exact List.map_id _

theorem nodup_userLabelsLocked (s : Store) (kind : Kind) (name : NamespacedName) :
    (keys (s.userLabelsLocked kind name)).Nodup := by
  rw [keys_userLabelsLocked]
  exact Finset.sort_nodup _ _

theorem isSystemLabel_userLabelsLocked {s : Store} {name : NamespacedName} (hs : Admitted s name)
    {kind : Kind} {key : String} (h : key ∈ keys (s.userLabelsLocked kind name)) :
    isSystemLabel key = false := by
  rw [keys_userLabelsLocked, Finset.mem_sort, Finmap.mem_keys] at h
  cases hlabels : s.metricLabels.lookup ⟨kind, name⟩ with
  | none =>
      rw [hlabels] at h
      exact absurd h Finmap.notMem_empty
  | some labels =>
      rw [hlabels] at h
      obtain ⟨path, hpath⟩ := hs _ _ hlabels
      exact not_isSystemLabel hpath h

/-! ## Observations -/

/-- The attributes of the resource, and then some of the observation's own. -/
def Extends (attrs : List KeyValue) (o : Observation) : Prop :=
  ∃ own, o.attrs = attrs ++ own ∧ (keys own).Sublist ownKeys

section Extends

variable {attrs : List KeyValue}

theorem extends_self (instrument : Instrument) (value : ℚ) :
    Extends attrs ⟨instrument, value, attrs⟩ :=
  ⟨[], (List.append_nil attrs).symm, List.nil_sublist _⟩

theorem extends_one (instrument : Instrument) (value : ℚ) {key : String} (text : String)
    (h : [key].Sublist ownKeys) :
    Extends attrs ⟨instrument, value, attrs ++ [attrString key text]⟩ :=
  ⟨_, rfl, h⟩

theorem extends_two (instrument : Instrument) (value : ℚ) {key key' : String} (text text' : String)
    (h : [key, key'].Sublist ownKeys) :
    Extends attrs ⟨instrument, value, attrs ++ [attrString key text, attrString key' text']⟩ :=
  ⟨_, rfl, h⟩

/-- Observations that are made on a condition. -/
theorem forall_mem_ite {α : Type} {P : α → Prop} {c : Prop} [Decidable c] {l : List α}
    (h : ∀ a ∈ l, P a) : ∀ a ∈ (if c then l else []), P a := by
  split
  · exact h
  · exact List.forall_mem_nil _

theorem observeSuppressed_extends (s : Store) (now : Time) (gauge : Instrument) (kind : Kind)
    (name : NamespacedName) (result : Result) :
    ∀ o ∈ s.observeSuppressed now gauge attrs kind name result, Extends attrs o := by
  intro o ho
  obtain ⟨dep, -, rfl⟩ := mem_observeSuppressed ho
  exact extends_two _ _ _ _ (by decide)

theorem observeTCP_extends : ∀ o ∈ observeTCP attrs, Extends attrs o :=
  List.forall_mem_singleton.mpr (extends_self _ _)

theorem observeHTTP_extends (state : ProbeState) :
    ∀ o ∈ observeHTTP attrs state, Extends attrs o := by
  unfold observeHTTP
  simp only [List.forall_mem_append, List.forall_mem_cons, List.forall_mem_map]
  refine ⟨⟨⟨extends_one _ _ _ (by decide), extends_self _ _, extends_self _ _,
    List.forall_mem_nil _⟩, ?_⟩, ?_⟩
  · exact forall_mem_ite (List.forall_mem_singleton.mpr (extends_self _ _))
  · refine ⟨?_, ?_, ?_, ?_, ?_, List.forall_mem_nil _⟩
    all_goals exact extends_one _ _ _ (by decide)

theorem observeDNS_extends (state : ProbeState) :
    ∀ o ∈ observeDNS attrs state, Extends attrs o := by
  unfold observeDNS
  simp only [List.forall_mem_append, List.forall_mem_cons]
  refine ⟨⟨⟨extends_self _ _, extends_self _ _, extends_self _ _, extends_self _ _,
    List.forall_mem_nil _⟩, ?_⟩, ?_⟩
  · exact forall_mem_ite (List.forall_mem_singleton.mpr (extends_one _ _ _ (by decide)))
  · exact forall_mem_ite (List.forall_mem_singleton.mpr (extends_one _ _ _ (by decide)))

theorem observePlaywright_extends (state : TestState) :
    ∀ o ∈ observePlaywright attrs state, Extends attrs o := by
  unfold observePlaywright
  simp only [List.forall_mem_append, List.forall_mem_cons, List.forall_mem_flatMap]
  refine ⟨fun tc _ => ⟨extends_two _ _ _ _ (by decide), extends_two _ _ _ _ (by decide),
    List.forall_mem_nil _⟩, extends_self _ _, extends_self _ _, extends_self _ _,
    List.forall_mem_nil _⟩

end Extends

/-! ## Resources -/

/-- The attributes of an observation: those of the resource, its user labels, and the
observation's own. -/
def Layered (s : Store) (kind : Kind) (name : NamespacedName) (o : Observation) : Prop :=
  ∃ resource own, o.attrs = resource ++ s.userLabelsLocked kind name ++ own ∧
    (keys resource).Sublist resourceKeys ∧ (keys own).Sublist ownKeys

theorem Extends.layered {s : Store} {kind : Kind} {name : NamespacedName}
    {resource : List KeyValue} (hresource : (keys resource).Sublist resourceKeys) {o : Observation}
    (h : Extends (resource ++ s.userLabelsLocked kind name) o) : Layered s kind name o := by
  obtain ⟨own, hattrs, hown⟩ := h
  exact ⟨resource, own, hattrs, hresource, hown⟩

theorem identityAttrs_sublist (kind : Kind) (name : NamespacedName) :
    (keys (identityAttrs kind name)).Sublist resourceKeys := by
  show ["name", "namespace", "kind"].Sublist resourceKeys
  decide

theorem targetAttrs_sublist (kind : Kind) (name : NamespacedName) (state : ProbeState) :
    (keys (identityAttrs kind name ++ targetAttrs kind state)).Sublist resourceKeys := by
  have hidentity : (keys (identityAttrs kind name ++ [])).Sublist resourceKeys := by
    rw [List.append_nil]
    exact identityAttrs_sublist kind name
  unfold targetAttrs
  split
  · split
    · show ["name", "namespace", "kind", "url"].Sublist resourceKeys
      decide
    · exact hidentity
  · split
    · show ["name", "namespace", "kind", "host", "port"].Sublist resourceKeys
      decide
    · exact hidentity
  · split
    · split
      · show ["name", "namespace", "kind", "query", "resolver"].Sublist resourceKeys
        decide
      · show ["name", "namespace", "kind", "query"].Sublist resourceKeys
        decide
    · split
      · show ["name", "namespace", "kind", "resolver"].Sublist resourceKeys
        decide
      · exact hidentity
  · exact hidentity

/-- The attributes of a probe. -/
def probeAttrs (s : Store) (name : NamespacedName) (state : ProbeState) : List KeyValue :=
  identityAttrs (probeKind state) name ++ targetAttrs (probeKind state) state ++
    s.userLabelsLocked (probeKind state) name

/-- The attributes of a test or of a Heartbeat. -/
def plainAttrs (s : Store) (kind : Kind) (name : NamespacedName) : List KeyValue :=
  identityAttrs kind name ++ s.userLabelsLocked kind name

theorem observeProbe_extends (s : Store) (now : Time) (name : NamespacedName)
    (state : ProbeState) :
    ∀ o ∈ s.observeProbe now name state, Extends (probeAttrs s name state) o := by
  unfold observeProbe
  simp only [List.forall_mem_append, List.forall_mem_cons, List.forall_mem_map]
  refine ⟨⟨⟨⟨extends_self _ _, extends_two _ _ _ _ (by decide), extends_self _ _,
    extends_self _ _, List.forall_mem_nil _⟩, observeSuppressed_extends _ _ _ _ _ _⟩,
    fun ar _ => extends_two _ _ _ _ (by decide)⟩, ?_⟩
  split
  · exact observeHTTP_extends state
  · exact observeDNS_extends state
  · exact observeTCP_extends
  · exact List.forall_mem_nil _

theorem observeTest_extends (s : Store) (now : Time) (name : NamespacedName)
    (state : TestState) :
    ∀ o ∈ s.observeTest now name state, Extends (plainAttrs s state.kind name) o := by
  unfold observeTest
  simp only [List.forall_mem_append, List.forall_mem_cons]
  exact ⟨⟨⟨extends_self _ _, extends_one _ _ _ (by decide), extends_self _ _, extends_self _ _,
    List.forall_mem_nil _⟩, observeSuppressed_extends _ _ _ _ _ _⟩,
    forall_mem_ite (observePlaywright_extends state)⟩

theorem observeHeartbeat_extends (s : Store) (now : Time) (name : NamespacedName)
    (state : Lifecycle.State) :
    ∀ o ∈ s.observeHeartbeat now name state, Extends (plainAttrs s .heartbeat name) o := by
  unfold observeHeartbeat
  split
  · exact List.forall_mem_nil _
  · simp only [List.forall_mem_append, List.forall_mem_cons]
    exact ⟨⟨extends_self _ _, extends_one _ _ _ (by decide), extends_self _ _, extends_self _ _,
      extends_self _ _, extends_self _ _, List.forall_mem_nil _⟩,
      observeSuppressed_extends _ _ _ _ _ _⟩

theorem observeProbe_layered (s : Store) (now : Time) (name : NamespacedName)
    (state : ProbeState) :
    ∀ o ∈ s.observeProbe now name state, Layered s (probeKind state) name o := by
  intro o ho
  apply Extends.layered (targetAttrs_sublist (probeKind state) name state)
  exact observeProbe_extends s now name state o ho

theorem observeTest_layered (s : Store) (now : Time) (name : NamespacedName)
    (state : TestState) :
    ∀ o ∈ s.observeTest now name state, Layered s state.kind name o := by
  intro o ho
  apply Extends.layered (identityAttrs_sublist state.kind name)
  exact observeTest_extends s now name state o ho

theorem observeHeartbeat_layered (s : Store) (now : Time) (name : NamespacedName)
    (state : Lifecycle.State) :
    ∀ o ∈ s.observeHeartbeat now name state, Layered s .heartbeat name o := by
  intro o ho
  apply Extends.layered (identityAttrs_sublist .heartbeat name)
  exact observeHeartbeat_extends s now name state o ho

/-! ## Results -/

theorem mem_operatorKeys {resource own : List KeyValue}
    (hresource : (keys resource).Sublist resourceKeys) (hown : (keys own).Sublist ownKeys)
    {kv : KeyValue} (h : kv ∈ resource ++ own) : kv.key ∈ resourceKeys ++ ownKeys := by
  rcases List.mem_append.mp h with h | h
  · exact List.mem_append_left _ (hresource.subset (List.mem_map_of_mem h))
  · exact List.mem_append_right _ (hown.subset (List.mem_map_of_mem h))

/-- The three parts have distinct keys each, and share none. -/
theorem Layered.nodup {s : Store} {name : NamespacedName} (hs : Admitted s name) {kind : Kind}
    {o : Observation} (h : Layered s kind name o) : (keys o.attrs).Nodup := by
  obtain ⟨resource, own, hattrs, hresource, hown⟩ := h
  have hoperator : (keys resource ++ keys own).Nodup :=
    (hresource.append hown).nodup nodup_operatorKeys
  have huser : ∀ key ∈ keys (s.userLabelsLocked kind name), key ∉ keys resource ++ keys own := by
    intro key hkey hmem
    have hsystem := isSystemLabel_operatorKeys key ((hresource.append hown).subset hmem)
    rw [isSystemLabel_userLabelsLocked hs hkey] at hsystem
    cases hsystem
  have hperm : (keys o.attrs).Perm
      (keys (s.userLabelsLocked kind name) ++ (keys resource ++ keys own)) := by
    rw [hattrs, keys, List.map_append, List.map_append, ← List.append_assoc]
    exact List.perm_append_comm.append_right _
  rw [hperm.nodup_iff, List.nodup_append']
  exact ⟨nodup_userLabelsLocked s kind name, hoperator, huser⟩

/-- An attribute is the only one with its key. -/
theorem filter_key {attrs : List KeyValue} (h : (keys attrs).Nodup) {kv : KeyValue}
    (hkv : kv ∈ attrs) : attrs.filter (fun kv' => kv'.key = kv.key) = [kv] := by
  have hfilter : attrs.filter (fun kv' => kv'.key = kv.key) = attrs.filter (· == kv) := by
    apply List.filter_congr
    intro kv' hkv'
    rw [Bool.eq_iff_iff, decide_eq_true_eq, beq_iff_eq]
    exact ⟨List.inj_on_of_nodup_map h hkv' hkv, congrArg KeyValue.key⟩
  rw [hfilter, List.filter_beq, List.count_eq_one_of_mem h.of_map hkv]
  rfl

/-- An entry of the identity is observed with this kind. -/
def ObservedAs (s : Store) (key : CrKey) (kind : Kind) : Prop :=
  (∃ state, s.probes.lookup key = some state ∧ kind = probeKind state) ∨
  (∃ state, s.tests.lookup key = some state ∧ kind = state.kind) ∨
  ∃ state, s.heartbeats.lookup key = some state ∧ kind = .heartbeat

theorem scrape_layered {s : Store} {now : Time} {key : CrKey} {o : Observation}
    (h : (key, o) ∈ s.scrape now) : ∃ kind, ObservedAs s key kind ∧ Layered s kind key.name o := by
  rcases mem_scrape.mp h with ⟨state, hstate, ho⟩ | ⟨state, hstate, ho⟩ | ⟨state, hstate, ho⟩
  · exact ⟨_, .inl ⟨state, hstate, rfl⟩, observeProbe_layered s now key.name state o ho⟩
  · exact ⟨_, .inr (.inl ⟨state, hstate, rfl⟩), observeTest_layered s now key.name state o ho⟩
  · exact ⟨_, .inr (.inr ⟨state, hstate, rfl⟩),
      observeHeartbeat_layered s now key.name state o ho⟩

/-- The Heartbeat `backup`, with a label. -/
def backupKey : CrKey := ⟨.heartbeat, ⟨"default", "backup"⟩⟩

def teamLabels : StringMap := Finmap.singleton "team" "storage"

def labelled : Store :=
  { Store.empty with
    heartbeats := Finmap.singleton backupKey ⟨60, 60, 100, false, 0, false⟩
    metricLabels := Finmap.singleton backupKey teamLabels }

theorem labelled_admitted : Admitted labelled backupKey.name := by
  intro kind labels hlabels
  have hkey : (⟨kind, backupKey.name⟩ : CrKey) = backupKey := by
    have hmem : ⟨kind, backupKey.name⟩ ∈ labelled.metricLabels :=
      Finmap.mem_of_lookup_eq_some hlabels
    exact (Finmap.mem_singleton _ _ _).mp hmem
  rw [hkey] at hlabels
  have heq : teamLabels = labels := Option.some.inj hlabels
  rw [← heq]
  refine ⟨metricLabelsPath, (validateMetricLabels_eq_nil_iff _ _).mpr fun key hkey => ?_⟩
  rw [(Finmap.mem_singleton _ _ _).mp hkey]
  decide

end SyntheticsOperator.Proofs.MetricLabels
