import SyntheticsOperator.Proofs.Identity
import SyntheticsOperator.Proofs.HeartbeatHistory
import SyntheticsOperator.Proofs.SpecStream
import SyntheticsOperator.Proofs.Tokens
import SyntheticsOperator.Proofs.Tombstone

/-!
# A whole resync repairs its subscribers

One run of `resync` against an API server in which a resource does not change, with
reconciles and writes to other resources in between:

* every message about the resource that is published meanwhile carries its spec
  (`Fresh.step`), and there is one when the run is over;
* a consumer that processes them has the dependencies, the labels and the contract of the
  resource, whatever its store held before and whatever else it processes;
* a receiver that processes them finds the token of a Heartbeat.
-/

namespace SyntheticsOperator.Proofs.Healing

open SyntheticsOperator.Api
open SyntheticsOperator.Controllers
open SyntheticsOperator.Metrics (Store)
open SyntheticsOperator.Proofs.HeartbeatHistory (Contract contract contract_applySpec
  contract_recordPing)
open SyntheticsOperator.Proofs.SpecStream (waiting describes effect_advance backup backupKey
  allWell)
open SyntheticsOperator.Results (SpecUpdate)
open SyntheticsOperator.Support

/-! ## What is published -/

section Stream

/-- The step does not write the object under the key. -/
def Keeps (k : CrKey) : Action → Prop
  | .update r => r.key ≠ k
  | .remove k' => k' ≠ k
  | _ => True

/-- The list that has the resource succeeds, and so do the calls before a publish of it. -/
def Succeeds (k : CrKey) (good : Outside → Prop) (s : State) : Action → Prop
  | .list order => s.kinds.head? = some k.kind → order ≠ none
  | .reconcile i out => ∀ read ∈ s.reconciles[i]?, read.key = k → good out
  | .resyncItem out => ∀ read ∈ s.items.head?, read.key = k → good out ∧ out.sent = true
  | _ => True

instance (k : CrKey) : DecidablePred (Keeps k)
  | .update r => inferInstanceAs (Decidable (r.key ≠ k))
  | .remove k' => inferInstanceAs (Decidable (k' ≠ k))
  | .create _ => inferInstanceAs (Decidable True)
  | .get _ => inferInstanceAs (Decidable True)
  | .resync => inferInstanceAs (Decidable True)
  | .reconcile _ _ => inferInstanceAs (Decidable True)
  | .list _ => inferInstanceAs (Decidable True)
  | .resyncItem _ => inferInstanceAs (Decidable True)

instance (k : CrKey) (good : Outside → Prop) [DecidablePred good] (s : State) :
    DecidablePred (Succeeds k good s)
  | .list order => inferInstanceAs (Decidable (s.kinds.head? = some k.kind → order ≠ none))
  | .reconcile i out => inferInstanceAs
      (Decidable (∀ read ∈ s.reconciles[i]?, read.key = k → good out))
  | .resyncItem out => inferInstanceAs
      (Decidable (∀ read ∈ s.items.head?, read.key = k → good out ∧ out.sent = true))
  | .create _ => inferInstanceAs (Decidable True)
  | .update _ => inferInstanceAs (Decidable True)
  | .remove _ => inferInstanceAs (Decidable True)
  | .get _ => inferInstanceAs (Decidable True)
  | .resync => inferInstanceAs (Decidable True)

/-- The state after some more steps. -/
def after (s : State) (actions : List Action) : State := actions.foldl State.step s

theorem after_snoc (s : State) (actions : List Action) (a : Action) :
    after s (actions ++ [a]) = (after s actions).step a := by
  simp [after]

theorem publication_cases {s : State} {a : Action} {p : Publication}
    (h : s.publication a = some p) :
    (∃ i out, a = .reconcile i out ∧ s.reconciles[i]? = some p.read ∧
        reconcile out p.read = some p.msg) ∨
      ∃ out, a = .resyncItem out ∧ s.items.head? = some p.read ∧
        resyncItem out p.read = some p.msg := by
  unfold State.publication at h
  split at h
  · rename_i i out
    split at h
    · cases h
    · rename_i read hread
      split at h
      · cases h
      · rename_i msg hmsg
        split at h
        · cases h
          exact .inl ⟨i, out, rfl, hread, hmsg⟩
        · cases h
  · rename_i out
    split at h
    · cases h
    · rename_i read rest hitems
      split at h
      · cases h
      · rename_i msg hmsg
        split at h
        · cases h
          exact .inr ⟨out, rfl, by simp [hitems], hmsg⟩
        · cases h
  · cases h

theorem exists_publication {s : State} {out : Outside} {read : Read} {msg : SpecUpdate}
    (hread : s.items.head? = some read) (hmsg : resyncItem out read = some msg)
    (hsent : out.sent = true) :
    ∃ p, s.publication (.resyncItem out) = some p ∧ p.msg = msg := by
  obtain ⟨rest, hitems⟩ : ∃ rest, s.items = read :: rest := List.head?_eq_some_iff.mp hread
  simp only [State.publication]
  split
  · rename_i hnil
    simp [hitems] at hnil
  · rename_i read' rest' hcons
    obtain ⟨rfl, rfl⟩ : read' = read ∧ rest' = rest := by simpa [hitems] using hcons.symm
    split
    · rename_i hnone
      simp [hmsg] at hnone
    · rename_i msg' hmsg'
      rw [if_pos hsent]
      exact ⟨_, rfl, Option.some.inj (hmsg'.symm.trans hmsg)⟩

/-- What a reconciler publishes for a resource whose message the resyncer can build. -/
theorem reconcileLive_eq {out : Outside} {r : Resource} {msg : SpecUpdate}
    (hresolves : (resyncLive out r).isSome = true) (h : reconcileLive out r = some msg) :
    resyncLive out r = some msg := by
  cases r with
  | heartbeat b =>
      simp only [reconcileLive] at h
      split at h
      · rename_i hnone
        simp [resyncLive, hnone] at hresolves
      · rename_i token htoken
        split at h
        · simpa [resyncLive, htoken] using h
        · cases h
  | _ => exact h

variable {k : CrKey} {o : Stored Resource} {good : Outside → Prop} {s₀ s : State} {a : Action}

theorem lookup_advance (hkeeps : Keeps k a) (hstored : s.api.objects.lookup k = some o) :
    (s.advance a).api.objects.lookup k = some o := by
  cases a with
  | create r =>
      simp only [State.advance, VersionedStore.create]
      split
      · exact hstored
      · rename_i hnew
        have hne : k ≠ r.key := by
          rintro rfl
          exact hnew (Finmap.mem_of_lookup_eq_some hstored)
        exact (Finmap.lookup_insert_of_ne _ hne).trans hstored
  | update r =>
      simp only [State.advance, VersionedStore.update]
      split
      · exact hstored
      · split
        · exact (Finmap.lookup_insert_of_ne _ (Ne.symm hkeeps)).trans hstored
        · exact hstored
  | remove k' => exact (Finmap.lookup_erase_ne (Ne.symm hkeeps)).trans hstored
  | get k' =>
      simp only [State.advance]
      split <;> exact hstored
  | reconcile i out => exact hstored
  | resync =>
      simp only [State.advance]
      split <;> exact hstored
  | list order =>
      simp only [State.advance]
      split
      · exact hstored
      · split <;> exact hstored
      · exact hstored
  | resyncItem out => exact hstored

/-- The running resync has still to list the resource, or to publish it from its list. -/
def ToPublish (k : CrKey) (s : State) : Prop :=
  k.kind ∈ s.kinds ∨ ∃ x ∈ s.items, x.key = k

variable (k o good s₀) in
/-- While the object stays as it is: every read of it that waits has seen it, and every
message about it that is new carries its spec. -/
structure Fresh (s : State) : Prop where
  stored : s.api.objects.lookup k = some o
  reads : ∀ x ∈ waiting s, x.key = k → x.seen = some o
  messages : ∀ p ∈ s.log.drop s₀.log.length, p.msg.key = k →
    ∃ out, good out ∧ resyncLive out o.value = some p.msg
  grows : s₀.log <+: s.log
  due : ToPublish k s ∨ ∃ p ∈ s.log.drop s₀.log.length, p.msg.key = k

/-- A new message about the resource is built from a read that has seen it. -/
theorem Fresh.message (h : Fresh k o good s₀ s) (hlive : o.value.objectMeta.deleting = false)
    (hgood : ∀ out, good out → (resyncLive out o.value).isSome = true)
    (hsucceeds : Succeeds k good s a) {p : Publication} (hp : s.publication a = some p)
    (hkey : p.msg.key = k) : ∃ out, good out ∧ resyncLive out o.value = some p.msg := by
  have hread : p.read.key = k := (describes p).key.symm.trans hkey
  have hseen : p.read.seen = some o :=
    h.reads _ (SpecStream.publication_spec hp).1 hread
  rcases publication_cases hp with ⟨i, out, rfl, hi, hmsg⟩ | ⟨out, rfl, hhead, hmsg⟩
  · have hout : good out := hsucceeds p.read hi hread
    simp only [reconcile, hseen, hlive, Bool.false_eq_true, if_false] at hmsg
    exact ⟨out, hout, reconcileLive_eq (hgood out hout) hmsg⟩
  · have hout : good out := (hsucceeds p.read hhead hread).1
    simp only [resyncItem, hseen, Option.bind_some, hlive, Bool.false_eq_true, if_false] at hmsg
    exact ⟨out, hout, hmsg⟩

theorem mem_resyncKinds (r : Resource) : r.kind ∈ resyncKinds := by
  cases r <;> simp [Resource.kind, resyncKinds]

/-- The resource stays to be published until it is. -/
theorem ToPublish.step (hdue : ToPublish k s) (h : Fresh k o good s₀ s)
    (hlive : o.value.objectMeta.deleting = false)
    (hgood : ∀ out, good out → (resyncLive out o.value).isSome = true)
    (hsucceeds : Succeeds k good s a) :
    ToPublish k (s.advance a) ∨ ∃ p, s.publication a = some p ∧ p.msg.key = k := by
  cases a with
  | create r => exact .inl hdue
  | update r => exact .inl hdue
  | remove k' => exact .inl hdue
  | get k' =>
      simp only [State.advance]
      split <;> exact .inl hdue
  | reconcile i out => exact .inl hdue
  | resync =>
      simp only [State.advance]
      split
      · rename_i hidle
        rcases hdue with hkind | ⟨x, hx, _⟩
        · simp [hidle.1] at hkind
        · simp [hidle.2] at hx
      · exact .inl hdue
  | list order =>
      simp only [State.advance]
      split
      · -- the list fails, and it is that of another kind
        rename_i kind kinds hkinds hitems
        left
        rcases hdue with hkind | ⟨x, hx, _⟩
        · rw [hkinds] at hkind
          rcases List.mem_cons.mp hkind with heq | hmem
          · exact absurd rfl (hsucceeds (by rw [hkinds, heq]; rfl))
          · exact .inl hmem
        · simp [hitems] at hx
      · rename_i kind kinds order' hkinds hitems
        split
        · rename_i hlists
          left
          rcases hdue with hkind | ⟨x, hx, _⟩
          · rw [hkinds] at hkind
            rcases List.mem_cons.mp hkind with heq | hmem
            · -- the list of its kind has the resource
              have hmem : k ∈ order' := by
                rw [← List.mem_toFinset, hlists.2, Finset.mem_filter, Finmap.mem_keys]
                exact ⟨Finmap.mem_of_lookup_eq_some h.stored, heq⟩
              exact .inr ⟨s.read k, List.mem_map_of_mem hmem, rfl⟩
            · exact .inl hmem
          · simp [hitems] at hx
        · exact .inl hdue
      · exact .inl hdue
  | resyncItem out =>
      rcases hdue with hkind | ⟨x, hx, hxkey⟩
      · exact .inl (.inl hkind)
      · by_cases hhead : s.items.head? = some x
        · obtain ⟨hout, hsent⟩ := hsucceeds x hhead hxkey
          have hwaits : x ∈ waiting s := List.mem_append_right _ hx
          have hmsg : resyncItem out x = resyncLive out o.value := by
            simp [resyncItem, h.reads x hwaits hxkey, hlive]
          obtain ⟨msg, hmsg'⟩ := Option.isSome_iff_exists.mp (hgood out hout)
          obtain ⟨p, hp, hpmsg⟩ := exists_publication hhead (hmsg.trans hmsg') hsent
          refine .inr ⟨p, hp, ?_⟩
          rw [hpmsg, (SpecStream.resyncLive_spec hmsg').1]
          exact s.keyed k o h.stored
        · left
          right
          cases hitems : s.items with
          | nil => simp [hitems] at hx
          | cons y rest =>
              have hrest : x ∈ rest := by
                rcases List.mem_cons.mp (hitems ▸ hx) with rfl | hrest
                · simp [hitems] at hhead
                · exact hrest
              exact ⟨x, by simpa [State.advance, hitems] using hrest, hxkey⟩

theorem Fresh.step (h : Fresh k o good s₀ s) (hlive : o.value.objectMeta.deleting = false)
    (hgood : ∀ out, good out → (resyncLive out o.value).isSome = true) (hkeeps : Keeps k a)
    (hsucceeds : Succeeds k good s a) : Fresh k o good s₀ (s.step a) := by
  have hlog : (s.step a).log.drop s₀.log.length =
      s.log.drop s₀.log.length ++ (s.publication a).toList :=
    List.drop_append_of_le_length h.grows.length_le
  refine ⟨lookup_advance hkeeps h.stored, fun x hx hkey => ?_, fun p hp hkey => ?_,
    h.grows.trans (List.prefix_append _ _), ?_⟩
  · rcases effect_advance s a with ⟨_, hsame⟩ | ⟨_, hnew⟩
    · exact h.reads x (hsame ▸ hx) hkey
    · rcases hnew x hx with hx | ⟨k', rfl⟩
      · exact h.reads x hx hkey
      · obtain rfl : k' = k := hkey
        exact h.stored
  · rw [hlog, List.mem_append, Option.mem_toList] at hp
    rcases hp with hp | hp
    · exact h.messages p hp hkey
    · exact h.message hlive hgood hsucceeds hp hkey
  · rw [hlog]
    rcases h.due with hdue | ⟨p, hp, hkey⟩
    · rcases hdue.step h hlive hgood hsucceeds with hdue | ⟨p, hp, hkey⟩
      · exact .inl hdue
      · exact .inr ⟨p, by simp [hp], hkey⟩
    · exact .inr ⟨p, List.mem_append_left _ hp, hkey⟩

variable (k o good) in
/-- A whole `resync` that starts in the state `s`, with the steps until it has returned.
The object is not written meanwhile, no reconcile that has read an older version of it is
still to publish, and the calls made for it succeed. -/
structure Undisturbed (s : State) (during : List Action) : Prop where
  idle : s.kinds = [] ∧ s.items = []
  stored : s.api.objects.lookup k = some o
  live : o.value.objectMeta.deleting = false
  reads : ∀ x ∈ s.reconciles, x.key = k → x.seen = some o
  steps : ∀ before a, before ++ [a] <+: during →
    Keeps k a ∧ Succeeds k good (after (s.step .resync) before) a
  done : (after (s.step .resync) during).kinds = [] ∧ (after (s.step .resync) during).items = []

theorem Succeeds.mono {good' : Outside → Prop} (himp : ∀ out, good out → good' out)
    (h : Succeeds k good s a) : Succeeds k good' s a := by
  cases a with
  | reconcile i out => exact fun read hread hkey => himp out (h read hread hkey)
  | resyncItem out =>
      exact fun read hread hkey => ⟨himp out (h read hread hkey).1, (h read hread hkey).2⟩
  | _ => exact h

theorem Undisturbed.mono {good' : Outside → Prop} {during : List Action}
    (h : Undisturbed k o good s during) (himp : ∀ out, good out → good' out) :
    Undisturbed k o good' s during :=
  { h with steps := fun before a hprefix =>
      ⟨(h.steps before a hprefix).1, (h.steps before a hprefix).2.mono himp⟩ }

/-- The messages that are published during a resync. -/
def broadcast (s : State) (during : List Action) : List SpecUpdate :=
  ((after (s.step .resync) during).log.drop s.log.length).map (·.msg)

theorem Undisturbed.fresh_start {during : List Action} (h : Undisturbed k o good s during) :
    Fresh k o good s (s.step .resync) := by
  have hkind : k.kind ∈ resyncKinds := by
    rw [← s.keyed k o h.stored]
    exact mem_resyncKinds o.value
  have hlog : (s.step .resync).log.drop s.log.length = [] := by
    simp [State.step, State.publication]
  refine ⟨lookup_advance (a := .resync) trivial h.stored, fun x hx hkey => ?_, ?_, ?_,
    .inl (.inl ?_)⟩
  · have hwaiting : waiting (s.step .resync) = s.reconciles := by
      simp [waiting, State.step, State.advance, h.idle, State.tick]
    exact h.reads x (hwaiting ▸ hx) hkey
  · simp [hlog]
  · exact List.prefix_append _ _
  · simpa [State.step, State.advance, h.idle] using hkind

theorem Undisturbed.fresh {during : List Action} (h : Undisturbed k o good s during)
    (hgood : ∀ out, good out → (resyncLive out o.value).isSome = true) :
    ∀ before, before <+: during → Fresh k o good s (after (s.step .resync) before) := by
  refine Histories.forall_prefix_of h.fresh_start (fun before a hfresh hstep => ?_) h.steps
  rw [after_snoc]
  exact hfresh.step h.live hgood hstep.1 hstep.2

/-- The messages about the resource all carry its spec, and there is one. -/
theorem Undisturbed.broadcast {during : List Action} (h : Undisturbed k o good s during)
    (hgood : ∀ out, good out → (resyncLive out o.value).isSome = true) :
    (∀ msg ∈ broadcast s during, msg.key = k →
        ∃ out, good out ∧ resyncLive out o.value = some msg) ∧
      ∃ msg ∈ broadcast s during, msg.key = k := by
  have hfresh := h.fresh hgood during (List.prefix_refl _)
  constructor
  · intro msg hmsg hkey
    obtain ⟨p, hp, rfl⟩ := List.mem_map.mp hmsg
    exact hfresh.messages p hp hkey
  · rcases hfresh.due with (hkind | ⟨x, hx, _⟩) | ⟨p, hp, hkey⟩
    · simp [h.done.1] at hkind
    · simp [h.done.2] at hx
    · exact ⟨p.msg, List.mem_map_of_mem hp, hkey⟩

end Stream

/-! ## The consumer -/

section Consumer

open SyntheticsOperator.MetricsConsumer
open SyntheticsOperator.Proofs.Identity
open SyntheticsOperator.Proofs.Tombstone (SameAt sameAt_handle)

def depends : Resource → List DependencyRef
  | .httpProbe p => p.spec.depends
  | .dnsProbe p => p.spec.depends
  | .tcpProbe p => p.spec.depends
  | .k6Test t => t.spec.depends
  | .playwrightTest t => t.spec.depends
  | .heartbeat h => h.spec.depends

def metricLabels : Resource → Results.StringMap
  | .httpProbe p => p.spec.metricLabels
  | .dnsProbe p => p.spec.metricLabels
  | .tcpProbe p => p.spec.metricLabels
  | .k6Test t => t.spec.metricLabels
  | .playwrightTest t => t.spec.metricLabels
  | .heartbeat h => h.spec.metricLabels

/-- What the store has for the resource is what its spec says. -/
structure Agrees (r : Resource) (store : Store) : Prop where
  depends : (store.depends.lookup r.key).getD [] = depends r
  metricLabels : (store.metricLabels.lookup r.key).getD ∅ = metricLabels r
  heartbeat : ∀ h, r = .heartbeat h → ∃ state, store.heartbeats.lookup r.key = some state ∧
    contract state = ⟨h.spec.period.milliseconds / 1000, h.spec.grace.milliseconds / 1000,
      h.spec.suspend⟩

variable {r : Resource} {store : Store}

theorem toAPIDepends_toDependsRefs (deps : List DependencyRef) :
    toAPIDepends (toDependsRefs deps) = deps :=
  (List.map_map ..).trans (List.map_id _)

/-- The fields of a message that the consumer reads. -/
theorem resyncLive_fields {out : Outside} {msg : SpecUpdate} (h : resyncLive out r = some msg) :
    msg.key = r.key ∧ msg.deleted = false ∧ toAPIDepends msg.depends = depends r ∧
      msg.metricLabels = metricLabels r ∧
      ∀ b, r = .heartbeat b → ∃ token, msg = heartbeatSpecUpdate b token := by
  refine ⟨(SpecStream.resyncLive_spec h).1, ?_⟩
  cases r with
  | httpProbe p =>
      simp only [resyncLive] at h
      split at h
      · cases h
      · cases h
        exact ⟨rfl, toAPIDepends_toDependsRefs _, rfl, by simp⟩
  | heartbeat b =>
      obtain ⟨token, -, rfl⟩ := Option.map_eq_some_iff.mp h
      refine ⟨rfl, toAPIDepends_toDependsRefs _, rfl, fun b' hb => ⟨token, ?_⟩⟩
      cases hb
      rfl
  | _ =>
      cases h
      exact ⟨rfl, toAPIDepends_toDependsRefs _, rfl, by simp⟩

theorem eq_empty_of_card_keys {labels : Results.StringMap} (h : labels.keys.card = 0) :
    labels = ∅ := by
  apply Finmap.ext_lookup
  intro key
  rw [Finmap.lookup_empty, Finmap.lookup_eq_none, ← Finmap.mem_keys, Finset.card_eq_zero.mp h]
  exact Finset.notMem_empty _

/-- A live spec writes the two maps that every kind has. -/
theorem onSpec_live (store : Store) {msg : SpecUpdate} (hlive : msg.deleted = false) :
    ((onSpec store msg).depends.lookup msg.key).getD [] = toAPIDepends msg.depends ∧
      ((onSpec store msg).metricLabels.lookup msg.key).getD ∅ = msg.metricLabels := by
  have hentries := entries_onSpec store msg
  have hdepends := congrArg Entries.depends hentries
  have hlabels := congrArg Entries.metricLabels hentries
  simp only [entries, Entries.handle, hlive, Bool.false_eq_true, if_false] at hdepends hlabels
  rw [hdepends, hlabels]
  refine ⟨?_, ?_⟩
  · split
    · rename_i hempty
      simp [toAPIDepends, List.length_eq_zero_iff.mp hempty]
    · rfl
  · split
    · rename_i hempty
      exact (eq_empty_of_card_keys hempty).symm
    · rfl

theorem agrees_onSpec (store : Store) {out : Outside} {msg : SpecUpdate}
    (h : resyncLive out r = some msg) : Agrees r (onSpec store msg) := by
  obtain ⟨hkey, hlive, hdepends, hlabels, hheartbeat⟩ := resyncLive_fields h
  obtain ⟨hdepends', hlabels'⟩ := onSpec_live store hlive
  refine ⟨?_, ?_, fun b hb => ?_⟩
  · rw [← hkey, hdepends', hdepends]
  · rw [← hkey, hlabels', hlabels]
  · obtain ⟨token, rfl⟩ := hheartbeat b hb
    subst hb
    rw [onSpec_heartbeats store rfl rfl rfl]
    refine ⟨_, Finmap.lookup_insert _, ?_⟩
    rw [contract_applySpec]
    rfl

/-- Other messages leave the agreement. -/
theorem Agrees.handle (h : Agrees r store) {m : Message}
    (hother : ∀ msg, m = .spec msg → msg.key ≠ r.key) : Agrees r (handle store m) := by
  by_cases hkey : m.key = r.key
  · cases m with
    | spec msg => exact absurd hkey (hother msg rfl)
    | probeResult msg => exact ⟨h.depends, h.metricLabels, h.heartbeat⟩
    | testResult msg =>
        obtain ⟨state, _, heq⟩ := onTestResult_eq store msg
        simp only [MetricsConsumer.handle, heq]
        exact ⟨h.depends, h.metricLabels, h.heartbeat⟩
    | ping now msg =>
        refine ⟨h.depends, h.metricLabels, fun b hb => ?_⟩
        obtain ⟨state, hstate, hcontract⟩ := h.heartbeat b hb
        rw [← hkey] at hstate ⊢
        refine ⟨_, Finmap.lookup_insert _, ?_⟩
        have hlookup : store.heartbeats.lookup ⟨.heartbeat, ⟨msg.ns, msg.name⟩⟩ = some state :=
          hstate
        rw [contract_recordPing, hlookup]
        exact hcontract
  · have hsame : SameAt r.key _ store := sameAt_handle store (Ne.symm hkey)
    refine ⟨?_, ?_, fun b hb => ?_⟩
    · rw [hsame.depends, h.depends]
    · rw [hsame.metricLabels, h.metricLabels]
    · rw [hsame.heartbeats]
      exact h.heartbeat b hb

/-- From any store: after messages of which those about the spec of the resource, at least
one, all carry it, the store agrees with the resource. -/
theorem agrees_run (store : Store) (messages : List Message)
    (hspecs : ∀ msg, .spec msg ∈ messages → msg.key = r.key → ∃ out, resyncLive out r = some msg)
    (hsome : ∃ msg, .spec msg ∈ messages ∧ msg.key = r.key) :
    Agrees r (MetricsConsumer.run store messages) := by
  induction messages using List.reverseRecOn with
  | nil =>
      obtain ⟨msg, hmsg, _⟩ := hsome
      cases hmsg
  | append_singleton messages m ih =>
      rw [MetricsConsumer.run_snoc]
      by_cases hm : ∃ msg, m = .spec msg ∧ msg.key = r.key
      · obtain ⟨msg, rfl, hkey⟩ := hm
        obtain ⟨out, hout⟩ := hspecs msg (by simp) hkey
        exact agrees_onSpec _ hout
      · have hother : ∀ msg, m = .spec msg → msg.key ≠ r.key :=
          fun msg heq hkey => hm ⟨msg, heq, hkey⟩
        refine Agrees.handle (ih (fun msg hmsg => hspecs msg (by simp [hmsg])) ?_) hother
        obtain ⟨msg, hmsg, hkey⟩ := hsome
        rcases List.mem_append.mp hmsg with hmsg | hmsg
        · exact ⟨msg, hmsg, hkey⟩
        · exact absurd hkey (hother msg (List.mem_singleton.mp hmsg).symm)

/-- A Heartbeat that is reconciled while a resync is at work. -/
def resyncBackup : List Action :=
  [.get backupKey, .list (some []), .list (some []), .list (some []), .list (some []),
    .list (some [backupKey]), .reconcile 0 allWell, .resyncItem allWell, .list (some [])]

theorem resyncBackup_undisturbed :
    Undisturbed backupKey ⟨0, .heartbeat backup⟩ (fun out => out.token = allWell.token)
      (run [.create (.heartbeat backup)]) resyncBackup where
  idle := by decide +kernel
  stored := by decide +kernel
  live := by decide +kernel
  reads := by decide +kernel
  steps := Histories.forall_step_of_take (by decide +kernel)
  done := by decide +kernel

end Consumer

/-! ## The receiver -/

section Receiver

open SyntheticsOperator.Heartbeat
open SyntheticsOperator.Proofs.Tokens

/-- No other Heartbeat has been given the token. -/
def Unshared (events : List Event) (name : NamespacedName) (token : GoString) : Prop :=
  ∀ msg other, .spec msg ∈ events → msg.key = ⟨.heartbeat, other⟩ →
    installedToken msg = some token → other = name

theorem Unshared.eq_of_liveToken {events : List Event} {name other : NamespacedName}
    {token : GoString}
    (h : Unshared events name token) (hlive : liveToken other events = some token) :
    other = name := by
  obtain ⟨msg, hlast, hinstalled⟩ := Option.bind_eq_some_iff.mp hlive
  obtain ⟨event, hevent, hspec⟩ := Histories.exists_of_lastSome_eq_some hlast
  cases event with
  | warmup => cases hspec
  | spec msg' =>
      simp only [specOf, Option.ite_none_right_eq_some, Option.some.injEq] at hspec
      obtain ⟨hkey, rfl⟩ := hspec
      exact h msg' other hevent hkey hinstalled

/-- A token that no two Heartbeats share is found while it is live. -/
theorem Unshared.lookup {events : List Event} {name : NamespacedName} {token : GoString}
    (h : Unshared events name token) (hlive : liveToken name events = some token) :
    (Receiver.run events).lookup token = some name := by
  induction events using List.reverseRecOn with
  | nil => cases hlive
  | append_singleton events event ih =>
      have hbefore : Unshared events name token := fun msg other hmsg =>
        h msg other (by simp [hmsg])
      rcases event_cases event with ⟨msg, owner, rfl, hkey⟩ | hnone
      · rw [Receiver.lookup, identities_run_snoc_spec events hkey]
        split
        · rename_i hinstalled
          rw [h msg owner (by simp) hkey hinstalled]
        · rename_i hinstalled
          have hne : name ≠ owner := by
            rintro rfl
            exact hinstalled ((liveToken_snoc_spec events hkey).symm.trans hlive)
          rw [if_neg fun hshared => hne (hbefore.eq_of_liveToken hshared).symm]
          exact ih hbefore ((liveToken_snoc_spec_of_ne events hkey hne).symm.trans hlive)
      · rw [Receiver.lookup, identities_run_snoc_other events hnone]
        exact ih hbefore ((liveToken_snoc_other events (hnone name)).symm.trans hlive)

end Receiver

end SyntheticsOperator.Proofs.Healing
