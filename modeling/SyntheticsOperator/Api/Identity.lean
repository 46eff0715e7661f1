import Mathlib.Logic.Equiv.Defs

/-!
# Identities of custom resources

A custom resource is identified by its kind and its namespaced name.  The kind
travels as a plain string through the wire types, the metrics store and
`spec.depends`, so the model keeps the six names the operator knows apart from
any other text: `Kind` and `String` carry the same information
(`Kind.equivString`), but a definition can match on the six names.
-/

namespace SyntheticsOperator.Api

/-- The kind strings of the six CRDs. -/
def crdKinds : List String :=
  ["HTTPProbe", "DNSProbe", "TCPProbe", "K6Test", "PlaywrightTest", "Heartbeat"]

/-- A kind string.  `other` is any text that is not one of `crdKinds`. -/
inductive Kind where
  | httpProbe
  | dnsProbe
  | tcpProbe
  | k6Test
  | playwrightTest
  | heartbeat
  | other (text : {s : String // s ∉ crdKinds})
deriving DecidableEq

namespace Kind

def text : Kind → String
  | httpProbe => "HTTPProbe"
  | dnsProbe => "DNSProbe"
  | tcpProbe => "TCPProbe"
  | k6Test => "K6Test"
  | playwrightTest => "PlaywrightTest"
  | heartbeat => "Heartbeat"
  | other text => text.1

def ofText (s : String) : Kind :=
  if h : s ∈ crdKinds then
    if s = "HTTPProbe" then httpProbe
    else if s = "DNSProbe" then dnsProbe
    else if s = "TCPProbe" then tcpProbe
    else if s = "K6Test" then k6Test
    else if s = "PlaywrightTest" then playwrightTest
    else heartbeat
  else other ⟨s, h⟩

theorem text_ofText (s : String) : (ofText s).text = s := by
  by_cases h : s ∈ crdKinds
  · have hs := h
    simp only [crdKinds, List.mem_cons, List.not_mem_nil, or_false] at hs
    rcases hs with rfl | rfl | rfl | rfl | rfl | rfl <;> rfl
  · simp [ofText, h, text]

theorem ofText_text (k : Kind) : ofText k.text = k := by
  cases k with
  | other text => simp [ofText, Kind.text, text.2]
  | _ => rfl

/-- A kind is a string with its six known values named. -/
def equivString : Kind ≃ String where
  toFun := text
  invFun := ofText
  left_inv := ofText_text
  right_inv := text_ofText

/-- The kinds the API server serves, that is, the six CRDs. -/
def served : Kind → Bool
  | other _ => false
  | _ => true

end Kind

/-- `types.NamespacedName`. -/
structure NamespacedName where
  ns : String
  name : String
deriving DecidableEq

/-- Kind and namespaced name: the map key of the metrics store, and the
identity of an API object. -/
structure CrKey where
  kind : Kind
  name : NamespacedName
deriving DecidableEq

/-- An entry of `spec.depends`: another custom resource in the namespace of the
one that lists it. -/
structure DependencyRef where
  kind : Kind
  name : String
deriving DecidableEq

/-- The resource a dependency of a resource in namespace `ns` points at. -/
def DependencyRef.key (ns : String) (dep : DependencyRef) : CrKey :=
  ⟨dep.kind, ⟨ns, dep.name⟩⟩

/-- The dependency entry that points at a resource from within its namespace. -/
def CrKey.ref (key : CrKey) : DependencyRef :=
  ⟨key.kind, key.name.name⟩

theorem CrKey.ref_key {ns : String} {key : CrKey} (h : key.name.ns = ns) :
    key.ref.key ns = key := by
  subst h
  rfl

end SyntheticsOperator.Api
