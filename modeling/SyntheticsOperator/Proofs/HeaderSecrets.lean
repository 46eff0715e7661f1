import SyntheticsOperator.Controllers.ProbeControllers
import SyntheticsOperator.Events.Notifier
import SyntheticsOperator.Prober.Worker
import SyntheticsOperator.Proofs.Configuration

/-!
# Header values from Secrets stay in the request

The values that `headersFrom` reads travel from the controller through the scheduler to a
worker.  Whoever reads only the status, the metrics, the Events or the errors learns nothing
about them that the sending of a request does not tell: two clusters whose Secrets differ in
their values show the same, as long as each request ends the same with the headers of either.

* `resolveRequestHeaders_alike`: the errors name no value;
* `onJob_headers`: the result of a run;
* `onSpec_headers`: the metrics of a spec.
-/

namespace SyntheticsOperator.Proofs.HeaderSecrets

open SyntheticsOperator.Api
open SyntheticsOperator.Controllers
open SyntheticsOperator.Events (announce)
open SyntheticsOperator.Metrics (Store)
open SyntheticsOperator.MetricsConsumer
open SyntheticsOperator.Prober
open SyntheticsOperator.Probes
open SyntheticsOperator.Results (SpecUpdate StringMap)
open SyntheticsOperator.Support

/-! ## The two clusters -/

/-- The Secrets differ in their values at most. -/
def Alike (secret secret' : SecretReader) : Prop :=
  ∀ name, (∃ err, secret name = .error err ∧ secret' name = .error err) ∨
    ∃ data data', secret name = .ok data ∧ secret' name = .ok data' ∧
      ∀ key, (data.lookup key).isSome = (data'.lookup key).isSome

/-- What a run of the probe sends with these headers. -/
def sentRequest (p : HTTPProbe) (method : String) (headers : StringMap) : HTTPRequest where
  url := p.spec.request.url
  method := method
  headers := headers
  body := p.spec.request.body
  tls := p.spec.tls.map fun c => ⟨c.insecureSkipVerify, c.caCert⟩

/-- The request of a run ends the same with either headers: the client takes both or refuses
both, and the target answers them alike. -/
def Indifferent (w : World) (p : HTTPProbe) (headers headers' : StringMap) : Prop :=
  ∀ (method : String) (ctx : Context),
    w.send (sentRequest p method headers) ctx = w.send (sentRequest p method headers') ctx

/-- Two outcomes that fail in the same way or both succeed. -/
def Agree {α : Type} (x y : Except String α) : Prop :=
  (∃ err, x = .error err ∧ y = .error err) ∨ ∃ a b, x = .ok a ∧ y = .ok b

/-! ## Resolving -/

section Resolve

variable {secret secret' : SecretReader}

theorem resolveHeader_alike (h : Alike secret secret') (ns : String) (source : HeaderFromSource)
    (merged merged' : StringMap) :
    Agree (resolveHeader secret ns merged source) (resolveHeader secret' ns merged' source) := by
  unfold resolveHeader
  rcases h ⟨ns, source.secretKeyRef.name⟩ with
    ⟨err, herr, herr'⟩ | ⟨data, data', hdata, hdata', hkeys⟩
  · rw [herr, herr']
    exact .inl ⟨_, rfl, rfl⟩
  · rw [hdata, hdata']
    have hkey := hkeys source.secretKeyRef.key
    cases hvalue : data.lookup source.secretKeyRef.key with
    | none =>
        have hvalue' : data'.lookup source.secretKeyRef.key = none := by
          simpa [hvalue] using hkey.symm
        simp only [hvalue, hvalue']
        exact .inl ⟨_, rfl, rfl⟩
    | some value =>
        rw [hvalue, Option.isSome_some] at hkey
        obtain ⟨value', hvalue'⟩ := Option.isSome_iff_exists.mp hkey.symm
        simp only [hvalue, hvalue']
        exact .inr ⟨_, _, rfl, rfl⟩

/-- The errors are the same, and so is whether there is one. -/
theorem resolveHeaders_alike (h : Alike secret secret') (ns : String)
    (sources : List HeaderFromSource) (merged merged' : StringMap) :
    Agree (sources.foldlM (resolveHeader secret ns) merged)
      (sources.foldlM (resolveHeader secret' ns) merged') := by
  induction sources generalizing merged merged' with
  | nil => exact .inr ⟨merged, merged', rfl, rfl⟩
  | cons source sources ih =>
      rw [List.foldlM_cons, List.foldlM_cons]
      rcases resolveHeader_alike h ns source merged merged' with
        ⟨err, herr, herr'⟩ | ⟨next, next', hnext, hnext'⟩
      · rw [herr, herr']
        exact .inl ⟨err, rfl, rfl⟩
      · rw [hnext, hnext']
        exact ih next next'

theorem resolveRequestHeaders_alike (h : Alike secret secret') (ns : String)
    (req : HTTPRequestSpec) :
    Agree (resolveRequestHeaders secret ns req) (resolveRequestHeaders secret' ns req) :=
  resolveHeaders_alike h ns req.headersFrom req.headers req.headers

end Resolve

/-! ## Running -/

section Run

variable {F : Type} (lib : Library F) {w : World} {p : HTTPProbe} {headers headers' : StringMap}

theorem executeRequest_headers (hw : Indifferent w p headers headers') (ctx : Context)
    (method : String) :
    executeRequest lib w ctx (sentRequest p method headers) =
      executeRequest lib w ctx (sentRequest p method headers') := by
  have hsend : ∀ method', w.send { sentRequest p method headers with method := method' } ctx =
      w.send { sentRequest p method headers' with method := method' } ctx :=
    fun method' => hw method' ctx
  simp only [executeRequest, hsend]
  rfl

variable [BEq F] [LT F] [LE F] [DecidableLT F] [DecidableLE F]

/-- The result of a run is the same with either headers in its spec. -/
theorem onJob_headers (hw : Indifferent w p headers headers') (scheduledAt : Time) :
    onJob lib w ⟨httpProbeSpecUpdate p headers, scheduledAt⟩ =
      onJob lib w ⟨httpProbeSpecUpdate p headers', scheduledAt⟩ := by
  have hexecute : executeHTTP lib w ⟨httpProbeSpecUpdate p headers, scheduledAt⟩ =
      executeHTTP lib w ⟨httpProbeSpecUpdate p headers', scheduledAt⟩ := by
    have hraw := fun ctx => executeRequest_headers lib hw ctx p.spec.request.method
    simp only [sentRequest] at hraw
    simp only [executeHTTP, httpProbeSpecUpdate, hraw]
    rfl
  unfold onJob
  change (if p.spec.suspend then none else some (executeHTTP lib w _)) =
    if p.spec.suspend then none else some (executeHTTP lib w _)
  rw [hexecute]

/-- What a consumer keeps of a spec does not depend on its headers. -/
theorem onSpec_headers (store : Store) (p : HTTPProbe) (headers headers' : StringMap) :
    onSpec store (httpProbeSpecUpdate p headers) =
      onSpec store (httpProbeSpecUpdate p headers') := rfl

end Run

/-! ## Reconciling -/

/-- Two specs of one probe, or the same message. -/
def SameProbe (spec spec' : Option SpecUpdate) : Prop :=
  spec = spec' ∨ ∃ (p : HTTPProbe) (headers headers' : StringMap),
    spec = some (httpProbeSpecUpdate p headers) ∧ spec' = some (httpProbeSpecUpdate p headers')

/-- What a `Reconcile` has shown. -/
structure ShowsSame (r r' : Reconciled) : Prop where
  result : r.result = r'.result
  patched : r.patched = r'.patched
  published : SameProbe r.published r'.published

section Reconcile

theorem schedule_shows (secret secret' : SecretReader) (calls : ReconcileCalls HTTPProbe)
    (key : NamespacedName) (p : HTTPProbe) (headers headers' : StringMap)
    (scheduler scheduler' : Scheduler) :
    ShowsSame
      (httpProbeReconciler.schedule { calls with secret := secret } key p
        (httpProbeSpecUpdate p headers) scheduler)
      (httpProbeReconciler.schedule { calls with secret := secret' } key p
        (httpProbeSpecUpdate p headers') scheduler') := by
  have hpublished : SameProbe (some (httpProbeSpecUpdate p headers))
      (some (httpProbeSpecUpdate p headers')) := .inr ⟨p, headers, headers', rfl, rfl⟩
  have hstatus : ∀ other, httpProbeReconciler.newStatus { calls with secret := other } p =
      httpProbeReconciler.newStatus calls p := fun _ => rfl
  unfold ProbeReconciler.schedule
  simp only [hstatus]
  split
  · exact ⟨rfl, rfl, hpublished⟩
  · exact ⟨rfl, rfl, hpublished⟩

variable {secret secret' : SecretReader}

theorem reconcileProbe_shows (h : Alike secret secret') (calls : ReconcileCalls HTTPProbe)
    (key : NamespacedName) (p : HTTPProbe) (scheduler scheduler' : Scheduler) :
    ShowsSame
      (httpProbeReconciler.reconcileProbe { calls with secret := secret } key p scheduler)
      (httpProbeReconciler.reconcileProbe { calls with secret := secret' } key p scheduler') := by
  unfold ProbeReconciler.reconcileProbe
  rcases resolveRequestHeaders_alike h p.ns p.spec.request with
    ⟨err, herr, herr'⟩ | ⟨headers, headers', hheaders, hheaders'⟩
  · have hspec : httpProbeReconciler.specUpdate secret p = .error err := by
      simp only [httpProbeReconciler, herr]
    have hspec' : httpProbeReconciler.specUpdate secret' p = .error err := by
      simp only [httpProbeReconciler, herr']
    simp only [hspec, hspec']
    exact ⟨rfl, rfl, .inl rfl⟩
  · have hspec : httpProbeReconciler.specUpdate secret p = .ok (httpProbeSpecUpdate p headers) := by
      simp only [httpProbeReconciler, hheaders]
    have hspec' : httpProbeReconciler.specUpdate secret' p =
        .ok (httpProbeSpecUpdate p headers') := by
      simp only [httpProbeReconciler, hheaders']
    simp only [hspec, hspec']
    cases calls.publish with
    | error err => exact ⟨rfl, rfl, .inr ⟨p, headers, headers', rfl, rfl⟩⟩
    | ok _ => exact schedule_shows secret secret' calls key p headers headers' scheduler scheduler'

theorem reconcile_shows (h : Alike secret secret') (calls : ReconcileCalls HTTPProbe)
    (key : NamespacedName) (scheduler scheduler' : Scheduler) :
    ShowsSame (httpProbeReconciler.reconcile { calls with secret := secret } key scheduler)
      (httpProbeReconciler.reconcile { calls with secret := secret' } key scheduler') := by
  unfold ProbeReconciler.reconcile
  cases calls.get with
  | error err =>
      cases err with
      | notFound => exact ⟨rfl, rfl, .inl rfl⟩
      | failed err => exact ⟨rfl, rfl, .inl rfl⟩
  | ok p =>
      simp only
      split
      · exact ⟨rfl, rfl, .inl rfl⟩
      · exact reconcileProbe_shows h calls key p scheduler scheduler'

end Reconcile

/-! ## Every history -/

/-- Where a message that the consumer processes comes from.  A spec and a run have the headers
of the one cluster and those of the other. -/
inductive Origin where
  | spec (p : HTTPProbe) (headers headers' : StringMap)
  | run (p : HTTPProbe) (headers headers' : StringMap) (w : World) (scheduledAt : Time)
  | other (m : Message)

namespace Origin

/-- The same in the other cluster. -/
def swap : Origin → Origin
  | .spec p headers headers' => .spec p headers' headers
  | .run p headers headers' w scheduledAt => .run p headers' headers w scheduledAt
  | .other m => .other m

/-- The network of a run does not tell the headers of the one cluster from those of the
other. -/
def Blind : Origin → Prop
  | .run p headers headers' w _ => Indifferent w p headers headers'
  | _ => True

variable {F : Type} [BEq F] [LT F] [LE F] [DecidableLT F] [DecidableLE F] (lib : Library F)

def message : Origin → Option Message
  | .spec p headers _ => some (.spec (httpProbeSpecUpdate p headers))
  | .run p headers _ w scheduledAt =>
      (onJob lib w ⟨httpProbeSpecUpdate p headers, scheduledAt⟩).map .probeResult
  | .other m => some m

end Origin

section History

variable {F : Type} [BEq F] [LT F] [LE F] [DecidableLT F] [DecidableLE F]
  (lib : Library F) (get : CrKey → Bool)

/-- The store and the Events after the messages. -/
def shown (store : Store) : List Message → Store × List Events.Event
  | [] => (store, [])
  | m :: messages =>
      let rest := shown (handle store m) messages
      (rest.1, (announce get store m).toList ++ rest.2)

theorem shown_swap (origins : List Origin) (hblind : ∀ origin ∈ origins, origin.Blind)
    (store : Store) :
    shown get store (origins.filterMap (Origin.message lib)) =
      shown get store ((origins.map Origin.swap).filterMap (Origin.message lib)) := by
  induction origins generalizing store with
  | nil => rfl
  | cons origin origins ih =>
      have htail := ih fun origin' hmem => hblind origin' (List.mem_cons_of_mem _ hmem)
      have hhead := hblind origin List.mem_cons_self
      rw [List.map_cons, List.filterMap_cons, List.filterMap_cons]
      cases origin with
      | other m =>
          simp only [Origin.message, Origin.swap, shown, htail]
      | spec p headers headers' =>
          have hspec : ∀ headers, handle store (.spec (httpProbeSpecUpdate p headers)) =
              handle store (.spec (httpProbeSpecUpdate p headers')) :=
            fun headers => onSpec_headers store p headers headers'
          simp only [Origin.message, Origin.swap, shown, hspec headers, htail]
          rfl
      | run p headers headers' w scheduledAt =>
          simp only [Origin.message, Origin.swap, onJob_headers lib hhead scheduledAt]
          cases onJob lib w ⟨httpProbeSpecUpdate p headers', scheduledAt⟩ with
          | none => exact htail store
          | some result => simp only [Option.map_some, shown, htail]

end History

/-- The Secret `default/api-key` with the given value. -/
def apiKey (value : String) : SecretReader := fun name =>
  if name = ⟨"default", "api-key"⟩ then .ok (Finmap.singleton "key" value)
  else .error "not found"

theorem apiKey_alike (value value' : String) : Alike (apiKey value) (apiKey value') := by
  intro name
  by_cases hname : name = ⟨"default", "api-key"⟩
  · right
    refine ⟨_, _, if_pos hname, if_pos hname, ?_⟩
    intro key
    by_cases hkey : key = "key"
    · rw [hkey]
      rfl
    · have hnone : ∀ v : String, (Finmap.singleton "key" v : StringMap).lookup key = none := by
        intro v
        rw [Finmap.lookup_eq_none, Finmap.mem_singleton]
        exact hkey
      rw [hnone, hnone]
  · exact .inl ⟨_, if_neg hname, if_neg hname⟩

/-- A probe that sends the value of that Secret. -/
def orders : HTTPProbe :=
  { name := "orders", ns := "default", generation := 1, deletionTimestamp := none
    spec :=
      { interval := 30000000000, timeout := 10000000000, suspend := false
        request :=
          { url := "https://example.com/orders", method := "GET", headers := ∅
            headersFrom := [⟨"X-Api-Key", ⟨"api-key", "key"⟩⟩], body := "" }
        tls := none, assertions := [], depends := [], metricLabels := ∅ } }

/-- Its spec and a run, with one value in the one cluster and another one in the other. -/
def rotated : List Origin :=
  [.spec orders (Finmap.singleton "X-Api-Key" "one") (Finmap.singleton "X-Api-Key" "two"),
    .run orders (Finmap.singleton "X-Api-Key" "one") (Finmap.singleton "X-Api-Key" "two")
      Configuration.answering ⟨0⟩]

end SyntheticsOperator.Proofs.HeaderSecrets
