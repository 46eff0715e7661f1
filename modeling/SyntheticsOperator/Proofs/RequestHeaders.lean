import SyntheticsOperator.Controllers.Specs
import SyntheticsOperator.Probes.RequestHeaders
import SyntheticsOperator.Support.MapLookup

/-!
# Headers that come from Secrets

The controller merges literal headers and headers from Secrets by their exact names, and
the prober sets them by their canonical names, in any order.  Two entries of the merged
map that share a canonical name race for it, so a Secret wins for certain exactly when no
entry under its canonical name disagrees with it.
-/

namespace SyntheticsOperator.Proofs.RequestHeaders

open SyntheticsOperator.Api
open SyntheticsOperator.Controllers
open SyntheticsOperator.Probes
open SyntheticsOperator.Results (StringMap)
open SyntheticsOperator.Support
open SyntheticsOperator.Support.Histories

section Merge

variable (secret : SecretReader) (ns : String)

/-- The value a `headersFrom` entry stands for. -/
def headerValue (h : HeaderFromSource) : Option String :=
  match secret ⟨ns, h.secretKeyRef.name⟩ with
  | .error _ => none
  | .ok data => data.lookup h.secretKeyRef.key

/-- The value of the last entry with exactly this name. -/
def exactValue (entries : List HeaderFromSource) (name : String) : Option String :=
  lastSome (fun h => if h.name = name then headerValue secret ns h else none) entries

/-- The value of the last entry whose name has this canonical form. -/
def canonicalValue (entries : List HeaderFromSource) (name : String) : Option String :=
  lastSome
    (fun h => if canonicalMIMEHeaderKey h.name = name then headerValue secret ns h else none)
    entries

variable {secret ns}

theorem resolveHeader_ok {merged merged' : StringMap} {h : HeaderFromSource}
    (hok : resolveHeader secret ns merged h = .ok merged') :
    ∃ value, headerValue secret ns h = some value ∧ merged' = merged.insert h.name value := by
  unfold resolveHeader at hok
  split at hok
  · cases hok
  · rename_i data hdata
    split at hok
    · cases hok
    · rename_i value hvalue
      cases hok
      exact ⟨value, by simp [headerValue, hdata, hvalue], rfl⟩

/-- When all Secrets resolve, every entry has its value, and the merged map has the last
one under each exact name, or else the literal header. -/
theorem foldlM_resolveHeader {entries : List HeaderFromSource} {literal merged : StringMap}
    (hok : entries.foldlM (resolveHeader secret ns) literal = .ok merged) :
    (∀ h ∈ entries, ∃ value, headerValue secret ns h = some value) ∧
      ∀ name, merged.lookup name =
        (exactValue secret ns entries name).or (literal.lookup name) := by
  induction entries generalizing literal with
  | nil =>
      cases hok
      exact ⟨fun _ h => absurd h List.not_mem_nil, fun _ => rfl⟩
  | cons h entries ih =>
      rw [List.foldlM_cons] at hok
      cases hfirst : resolveHeader secret ns literal h with
      | error err =>
          rw [hfirst] at hok
          cases hok
      | ok literal' =>
          rw [hfirst] at hok
          obtain ⟨value, hvalue, rfl⟩ := resolveHeader_ok hfirst
          obtain ⟨hvalues, hlookup⟩ := ih hok
          refine ⟨?_, fun name => ?_⟩
          · intro h' hmem
            rcases List.mem_cons.mp hmem with rfl | hmem
            · exact ⟨value, hvalue⟩
            · exact hvalues h' hmem
          · rw [hlookup, exactValue, exactValue, lastSome_cons, lookup_insert_ite, Option.or_assoc]
            congr 1
            by_cases hname : h.name = name
            · simp [hname, hvalue]
            · simp [hname, Ne.symm hname]

end Merge

/-! ## The request -/

/-- What the request carries is what the loop set last. -/
theorem lookup_requestHeader (order : List (Sigma fun _ : String => String)) (name : String) :
    (requestHeader order).lookup name =
      lastSome (fun entry =>
        if canonicalMIMEHeaderKey entry.1 = name then some [entry.2] else none) order := by
  have h := lookup_foldl_insert (∅ : Header) (fun e : Sigma fun _ : String => String =>
    canonicalMIMEHeaderKey e.1) (fun e => [e.2]) order name
  rw [Finmap.lookup_empty, Option.or_none] at h
  exact h

theorem mem_order_iff {headers : StringMap} {order : List (Sigma fun _ : String => String)}
    (h : Iterates headers order) (entry : Sigma fun _ : String => String) :
    entry ∈ order ↔ headers.lookup entry.1 = some entry.2 := by
  rw [Finmap.lookup_eq_some_iff, ← h, Multiset.mem_coe]

/-- Some order meets a given entry last. -/
theorem exists_iterates_last {headers : StringMap} {name value : String}
    (h : headers.lookup name = some value) :
    ∃ order, Iterates headers (order ++ [⟨name, value⟩]) := by
  obtain ⟨rest, hrest⟩ := Multiset.exists_cons_of_mem (Finmap.lookup_eq_some_iff.mp h)
  refine ⟨rest.toList, ?_⟩
  rw [Iterates, hrest, ← Multiset.coe_add, Multiset.coe_toList, add_comm,
    ← Multiset.singleton_add]
  rfl

theorem lookup_requestHeader_last (order : List (Sigma fun _ : String => String))
    (name value : String) :
    (requestHeader (order ++ [⟨name, value⟩])).lookup (canonicalMIMEHeaderKey name) =
      some [value] := by
  simp [lookup_requestHeader]

/-! ## When Secrets win -/

section Wins

variable (secret : SecretReader) (ns : String) (req : HTTPRequestSpec)

/-- Under the canonical name of a `headersFrom` entry nothing disagrees with the last one:
no literal header that keeps a spelling of its own, and no other spelling among the
`headersFrom` names. -/
def OneValue : Prop :=
  ∀ h ∈ req.headersFrom,
    (∀ name value, req.headers.lookup name = some value →
      canonicalMIMEHeaderKey name = canonicalMIMEHeaderKey h.name →
      (∀ h' ∈ req.headersFrom, h'.name ≠ name) →
      canonicalValue secret ns req.headersFrom (canonicalMIMEHeaderKey h.name) = some value) ∧
    (∀ h' ∈ req.headersFrom, canonicalMIMEHeaderKey h'.name = canonicalMIMEHeaderKey h.name →
      exactValue secret ns req.headersFrom h'.name =
        canonicalValue secret ns req.headersFrom (canonicalMIMEHeaderKey h.name))

/-- In every order, the request carries the value of the last `headersFrom` entry under
its canonical name. -/
def SecretsWin (merged : StringMap) : Prop :=
  ∀ order, Iterates merged order → ∀ h ∈ req.headersFrom,
    (requestHeader order).lookup (canonicalMIMEHeaderKey h.name) =
      (canonicalValue secret ns req.headersFrom (canonicalMIMEHeaderKey h.name)).map ([·])

/-- Under every other canonical name, the order plays no part unless two literal headers
share the name. -/
def OthersSettled (merged : StringMap) : Prop :=
  ∀ order order', Iterates merged order → Iterates merged order' →
    ∀ name, (∀ h ∈ req.headersFrom, canonicalMIMEHeaderKey h.name ≠ name) →
    (∀ a ∈ req.headers, ∀ b ∈ req.headers, canonicalMIMEHeaderKey a = name →
      canonicalMIMEHeaderKey b = name → a = b) →
    (requestHeader order).lookup name = (requestHeader order').lookup name

variable {secret ns req} {merged : StringMap}

theorem exactValue_eq_none {name : String} :
    (∀ h ∈ req.headersFrom, h.name ≠ name) →
      exactValue secret ns req.headersFrom name = none := by
  intro h
  rw [exactValue, lastSome_eq_none]
  exact fun h' hmem => if_neg (h h' hmem)

theorem exactValue_eq_some
    (hvalues : ∀ h ∈ req.headersFrom, ∃ value, headerValue secret ns h = some value)
    {h : HeaderFromSource} (hmem : h ∈ req.headersFrom) :
    ∃ value, exactValue secret ns req.headersFrom h.name = some value := by
  obtain ⟨value, hvalue⟩ := hvalues h hmem
  exact exists_lastSome_eq_some hmem ((if_pos rfl).trans hvalue)

/-- Whatever the merged map holds under the canonical name of a `headersFrom` entry has
the value of the last one. -/
theorem OneValue.value_eq (hresolve : resolveRequestHeaders secret ns req = .ok merged)
    (hone : OneValue secret ns req) {h : HeaderFromSource} (hmem : h ∈ req.headersFrom)
    {name value : String} (hlookup : merged.lookup name = some value)
    (hname : canonicalMIMEHeaderKey name = canonicalMIMEHeaderKey h.name) :
    canonicalValue secret ns req.headersFrom (canonicalMIMEHeaderKey h.name) = some value := by
  obtain ⟨hvalues, hmerged⟩ := foldlM_resolveHeader hresolve
  obtain ⟨hliteral, hspelling⟩ := hone h hmem
  rw [hmerged] at hlookup
  by_cases hexact : ∃ h' ∈ req.headersFrom, h'.name = name
  · obtain ⟨h', hmem', rfl⟩ := hexact
    obtain ⟨value', hvalue'⟩ := exactValue_eq_some hvalues hmem'
    rw [hvalue', Option.some_or] at hlookup
    rw [← hspelling h' hmem' hname, hvalue', hlookup]
  · have hno : ∀ h' ∈ req.headersFrom, h'.name ≠ name :=
      fun h' hmem' heq => hexact ⟨h', hmem', heq⟩
    rw [exactValue_eq_none hno, Option.none_or] at hlookup
    exact hliteral name value hlookup hname hno

theorem OneValue.secretsWin (hresolve : resolveRequestHeaders secret ns req = .ok merged)
    (hone : OneValue secret ns req) : SecretsWin secret ns req merged := by
  intro order horder h hmem
  obtain ⟨hvalues, hmerged⟩ := foldlM_resolveHeader hresolve
  -- the entry's own name is in the map, so the loop sets the canonical name
  obtain ⟨value, hvalue⟩ := exactValue_eq_some hvalues hmem
  have hown : merged.lookup h.name = some value := by rw [hmerged, hvalue, Option.some_or]
  have hentry : (⟨h.name, value⟩ : Sigma fun _ : String => String) ∈ order :=
    (mem_order_iff horder _).mpr hown
  obtain ⟨carried, hcarried⟩ := exists_lastSome_eq_some
    (f := fun entry : Sigma fun _ : String => String =>
      if canonicalMIMEHeaderKey entry.1 = canonicalMIMEHeaderKey h.name then some [entry.2]
      else none) hentry (if_pos rfl)
  obtain ⟨last, hlast, hset⟩ := exists_of_lastSome_eq_some hcarried
  rw [lookup_requestHeader, hcarried]
  split at hset
  · rename_i hname
    cases hset
    have hfound := (mem_order_iff horder last).mp hlast
    rw [hone.value_eq hresolve hmem hfound hname]
    rfl
  · cases hset

theorem SecretsWin.oneValue (hresolve : resolveRequestHeaders secret ns req = .ok merged)
    (hwin : SecretsWin secret ns req merged) : OneValue secret ns req := by
  obtain ⟨hvalues, hmerged⟩ := foldlM_resolveHeader hresolve
  -- an entry that disagreed could be the last one the loop sets
  have hagree : ∀ h ∈ req.headersFrom, ∀ name value, merged.lookup name = some value →
      canonicalMIMEHeaderKey name = canonicalMIMEHeaderKey h.name →
      canonicalValue secret ns req.headersFrom (canonicalMIMEHeaderKey h.name) = some value := by
    intro h hmem name value hlookup hname
    obtain ⟨order, horder⟩ := exists_iterates_last hlookup
    have hcarried := hwin _ horder h hmem
    rw [← hname, lookup_requestHeader_last] at hcarried
    rw [← hname]
    cases hvalue : canonicalValue secret ns req.headersFrom (canonicalMIMEHeaderKey name) with
    | none =>
        rw [hvalue] at hcarried
        cases hcarried
    | some v =>
        rw [hvalue] at hcarried
        simpa using hcarried.symm
  intro h hmem
  refine ⟨fun name value hliteral hname hno => ?_, fun h' hmem' hname => ?_⟩
  · refine hagree h hmem name value ?_ hname
    rw [hmerged, exactValue_eq_none hno, Option.none_or, hliteral]
  · obtain ⟨value, hvalue⟩ := exactValue_eq_some hvalues hmem'
    rw [hvalue]
    refine (hagree h hmem h'.name value ?_ hname).symm
    rw [hmerged, hvalue, Option.some_or]

theorem othersSettled (hresolve : resolveRequestHeaders secret ns req = .ok merged) :
    OthersSettled req merged := by
  intro order order' horder horder' name hother hshared
  obtain ⟨_, hmerged⟩ := foldlM_resolveHeader hresolve
  -- only literal headers contribute, and at most one of them
  have hliteral : ∀ entry : Sigma fun _ : String => String, merged.lookup entry.1 = some entry.2 →
      canonicalMIMEHeaderKey entry.1 = name → req.headers.lookup entry.1 = some entry.2 := by
    intro entry hentry hname
    have hno : ∀ h ∈ req.headersFrom, h.name ≠ entry.1 :=
      fun h hmem heq => hother h hmem (heq ▸ hname)
    rwa [hmerged, exactValue_eq_none hno, Option.none_or] at hentry
  have hagree : ∀ order, Iterates merged order → ∀ e ∈ order, ∀ e' ∈ order, ∀ b b',
      (if canonicalMIMEHeaderKey e.1 = name then some [e.2] else none) = some b →
      (if canonicalMIMEHeaderKey e'.1 = name then some [e'.2] else none) = some b' → b = b' := by
    intro order horder e he e' he' b b' hb hb'
    split at hb <;> split at hb' <;> cases hb <;> cases hb'
    rename_i hname hname'
    have hfound := hliteral e ((mem_order_iff horder e).mp he) hname
    have hfound' := hliteral e' ((mem_order_iff horder e').mp he') hname'
    have hsame := hshared e.1 (Finmap.mem_of_lookup_eq_some hfound) e'.1
      (Finmap.mem_of_lookup_eq_some hfound') hname hname'
    rw [hsame, hfound'] at hfound
    rw [Option.some.inj hfound]
  apply Option.ext
  intro value
  rw [lookup_requestHeader, lookup_requestHeader,
    lastSome_eq_some_iff_of_agree (hagree order horder),
    lastSome_eq_some_iff_of_agree (hagree order' horder')]
  simp only [mem_order_iff horder, mem_order_iff horder']

/-- For every request whose Secrets all resolve: the Secrets win and the other headers are
settled, whatever the order of the loop, exactly when nothing disagrees with a Secret
under its canonical name. -/
theorem secretsWin_iff (hresolve : resolveRequestHeaders secret ns req = .ok merged) :
    SecretsWin secret ns req merged ∧ OthersSettled req merged ↔ OneValue secret ns req :=
  ⟨fun h => h.1.oneValue hresolve, fun h => ⟨h.secretsWin hresolve, othersSettled hresolve⟩⟩

end Wins

/-! ## An API key and its placeholder -/

/-- A request with a literal header and the header `X-Api-Key` out of the Secret
`creds`. -/
def keyed (literal : String) : HTTPRequestSpec where
  url := "https://example.com/health"
  method := "GET"
  headers := Finmap.singleton literal "placeholder"
  headersFrom := [⟨"X-Api-Key", ⟨"creds", "key"⟩⟩]
  body := ""

/-- The Secret. -/
def creds : SecretReader := fun _ => .ok (Finmap.singleton "key" "s3cret")

theorem secretsWin_sameSpelling :
    SecretsWin creds "default" (keyed "X-Api-Key") (Finmap.singleton "X-Api-Key" "s3cret") ∧
      OthersSettled (keyed "X-Api-Key") (Finmap.singleton "X-Api-Key" "s3cret") := by
  refine (secretsWin_iff (by decide +kernel)).mpr fun h hmem => ⟨?_, ?_⟩
  · intro name value hlookup _ hno
    have hname : name = "X-Api-Key" := by
      by_contra hne
      have hmem := Finmap.mem_of_lookup_eq_some hlookup
      rw [keyed, Finmap.mem_singleton] at hmem
      exact hne hmem
    exact absurd hname.symm (hno ⟨"X-Api-Key", ⟨"creds", "key"⟩⟩ (by simp [keyed]))
  · intro h' hmem' _
    obtain rfl : h = ⟨"X-Api-Key", ⟨"creds", "key"⟩⟩ := by simpa [keyed] using hmem
    obtain rfl : h' = ⟨"X-Api-Key", ⟨"creds", "key"⟩⟩ := by simpa [keyed] using hmem'
    decide +kernel

/-- The placeholder is spelled in lower case and the loop meets it last: the request
carries it in place of the Secret. -/
theorem placeholder_wins :
    ∃ merged order,
      resolveRequestHeaders creds "default" (keyed "x-api-key") = .ok merged ∧
      Iterates merged order ∧
      (requestHeader order).lookup "X-Api-Key" = some ["placeholder"] ∧
      canonicalValue creds "default" (keyed "x-api-key").headersFrom "X-Api-Key" =
        some "s3cret" :=
  ⟨(Finmap.singleton "x-api-key" "placeholder").insert "X-Api-Key" "s3cret",
    [⟨"X-Api-Key", "s3cret"⟩, ⟨"x-api-key", "placeholder"⟩],
    by decide +kernel, by decide +kernel, by decide +kernel, by decide +kernel⟩

end SyntheticsOperator.Proofs.RequestHeaders
