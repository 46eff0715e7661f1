import Mathlib.Data.Finmap
import Mathlib.Data.Finset.Insert
import SyntheticsOperator.Api.Identity

/-!
# Admission checks on `spec.depends`

`ValidateDepends` and the functions it calls, as the webhooks of all six kinds
use them.  A read of the API server can fail; the two functions that read,
`checkDepExists` and `fetchDepends`, each ask for a resource at most once in one
call of `ValidateDepends`, so a `Reader` gives one answer to each of them.
-/

namespace SyntheticsOperator.Api

/-- Why a `reader.Get` failed. -/
inductive GetError where
  | notFound
  | failed (text : String)
deriving DecidableEq

/-- The answers to the reads of one `ValidateDepends` call: `object` to those
`checkDepExists` makes, `depends` to those of `fetchDepends`. -/
structure Reader where
  object : CrKey → Except GetError Unit
  depends : CrKey → Except GetError (List DependencyRef)

inductive BadValue where
  | text (value : String)
  /-- a number -/
  | int (value : Int)
  /-- `Duration.String()` -/
  | duration (value : Int)
  | ref (value : DependencyRef)
  | refs (value : List DependencyRef)
deriving DecidableEq

/-- `field.Error`, by the constructor the source calls. -/
inductive FieldError where
  | required (path : String) (detail : String)
  | notSupported (path : String) (value : String) (supported : List String)
  | invalid (path : String) (value : BadValue) (detail : String)
  | duplicate (path : String) (value : BadValue)
deriving DecidableEq

def maxDependsDepth : Nat := 16

/-- `%q` of a text that needs no escaping, which DNS-1123 names do not. -/
def quoted (text : String) : String := "\"" ++ text ++ "\""

/-- `none` is a nil error. -/
def checkDepExists (reader : Reader) (ns : String) (dep : DependencyRef) : Option String :=
  if dep.kind.served then
    match reader.object (dep.key ns) with
    | .ok () => none
    | .error .notFound =>
        some (dep.kind.text ++ " " ++ quoted dep.name ++ " not found in namespace " ++ quoted ns)
    | .error (.failed text) =>
        some ("looking up " ++ dep.kind.text ++ " " ++ quoted dep.name ++ ": " ++ text)
  else some ("unknown dependency kind " ++ quoted dep.kind.text)

def fetchDepends (reader : Reader) (ns : String) (dep : DependencyRef) :
    Except GetError (List DependencyRef) :=
  if dep.kind.served then reader.depends (dep.key ns)
  else .error (.failed ("unknown dependency kind " ++ quoted dep.kind.text))

/-- The walk with `room = maxDependsDepth - depth` levels left.  `.error` is the
returned error; `.ok` is nil together with the visited map it leaves behind. -/
def walkForCycle (reader : Reader) (ownerRef : DependencyRef) (ns : String) :
    Nat → List DependencyRef → Finset DependencyRef →
      Except String (Finset DependencyRef)
  -- depth >= maxDependsDepth, tested before the list is looked at
  | 0, _, _ => .error ("dependency chain exceeds max depth " ++ toString maxDependsDepth)
  | room + 1, deps, visited =>
      deps.foldlM
        (fun visited dep =>
          if dep = ownerRef then
            .error ("dependency cycle: " ++ ownerRef.kind.text ++ "/" ++ ownerRef.name ++
              " eventually depends on itself")
          else if dep ∈ visited then .ok visited
          else
            match fetchDepends reader ns dep with
            -- missing or unreadable: the branch is skipped
            | .error _ => .ok (insert dep visited)
            | .ok subDeps => walkForCycle reader ownerRef ns room subDeps (insert dep visited))
        visited

def checkNoCycle (reader : Reader) (owner : CrKey) (directDeps : List DependencyRef) :
    Option String :=
  match walkForCycle reader owner.ref owner.name.ns maxDependsDepth directDeps ∅ with
  | .error err => some err
  | .ok _ => none

/-- The error list and the `seen` map of the loop over the entries. -/
structure DepsLoop where
  errs : List FieldError
  seen : Finset DependencyRef

namespace DepsLoop

def fail (loop : DepsLoop) (err : FieldError) : DepsLoop :=
  { loop with errs := loop.errs ++ [err] }

end DepsLoop

section Validate

-- `validation.IsDNS1123Subdomain` is library code; it returns its complaints
variable (isDNS1123Subdomain : String → List String)

def validateDep (reader : Reader) (owner : CrKey) (path : String) (loop : DepsLoop)
    (dep : DependencyRef) (i : Nat) : DepsLoop :=
  let fp := path ++ "[" ++ toString i ++ "]"
  if dep.kind.served = false then
    loop.fail (.notSupported (fp ++ ".kind") dep.kind.text crdKinds)
  else
    match isDNS1123Subdomain dep.name with
    | err :: _ => loop.fail (.invalid (fp ++ ".name") (.text dep.name) err)
    | [] =>
        if dep = owner.ref then
          loop.fail (.invalid fp (.ref dep) "probe or test cannot depend on itself")
        else if dep ∈ loop.seen then loop.fail (.duplicate fp (.ref dep))
        else
          let loop := { loop with seen := insert dep loop.seen }
          match checkDepExists reader owner.name.ns dep with
          | some err => loop.fail (.invalid fp (.ref dep) err)
          | none => loop

def validateDepends (reader : Reader) (owner : CrKey) (deps : List DependencyRef)
    (path : String) : List FieldError :=
  if deps = [] then []
  else
    let loop := deps.zipIdx.foldl
      (fun loop (dep, i) => validateDep isDNS1123Subdomain reader owner path loop dep i)
      ⟨[], ∅⟩
    if loop.errs = [] then
      match checkNoCycle reader owner deps with
      | some err => [.invalid path (.refs deps) err]
      | none => []
    else loop.errs

end Validate

/-! ## The objects behind the webhook -/

/-- The `spec.depends` of every existing custom resource.  Only the six kinds
are served, so no other kind can be stored. -/
structure Cluster where
  objects : Finmap fun _ : CrKey => List DependencyRef
  served : ∀ key ∈ objects, key.kind.served = true

namespace Cluster

def empty : Cluster := ⟨∅, fun _ h => absurd h Finmap.notMem_empty⟩

/-- A reader that returns the current objects and never fails otherwise. -/
def reader (c : Cluster) : Reader where
  object key := if key ∈ c.objects then .ok () else .error .notFound
  depends key :=
    match c.objects.lookup key with
    | some deps => .ok deps
    | none => .error .notFound

def put (c : Cluster) (owner : CrKey) (deps : List DependencyRef)
    (h : owner.kind.served = true) : Cluster where
  objects := c.objects.insert owner deps
  served := by
    intro key hkey
    rcases Finmap.mem_insert.mp hkey with rfl | hkey
    · exact h
    · exact c.served key hkey

def remove (c : Cluster) (owner : CrKey) : Cluster where
  objects := c.objects.erase owner
  served := fun key hkey => c.served key (Finmap.mem_erase.mp hkey).2

end Cluster

/-- A request to the API server: `write` creates the resource or updates its
`spec.depends`, the webhook treats both alike. -/
inductive Op where
  | write (owner : CrKey) (deps : List DependencyRef)
  | delete (owner : CrKey)

/-- `field.NewPath("spec", "depends")`, the path all six webhooks pass. -/
def dependsPath : String := "spec.depends"

def Cluster.admits (isDNS1123Subdomain : String → List String) (c : Cluster)
    (owner : CrKey) (deps : List DependencyRef) : Bool :=
  validateDepends isDNS1123Subdomain c.reader owner deps dependsPath = []

/-- One request: a rejected write and a delete of a missing object change
nothing. -/
def Cluster.step (isDNS1123Subdomain : String → List String) (c : Cluster) : Op → Cluster
  | .write owner deps =>
      if h : owner.kind.served = true then
        if c.admits isDNS1123Subdomain owner deps then c.put owner deps h else c
      else c
  | .delete owner => c.remove owner

def Cluster.run (isDNS1123Subdomain : String → List String) (ops : List Op) : Cluster :=
  ops.foldl (Cluster.step isDNS1123Subdomain) Cluster.empty

end SyntheticsOperator.Api
