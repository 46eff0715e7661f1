import Mathlib.Data.Finset.Insert
import SyntheticsOperator.Metrics.Store

/-!
# The suppression walk

`findUnhealthyDep` and the functions under it.  The clock is read during the
walk; `now` is what it returns, held constant for one call.
-/

namespace SyntheticsOperator.Metrics

open SyntheticsOperator.Api (Kind NamespacedName CrKey DependencyRef)
open SyntheticsOperator.Support

/-- Depth limit of the walk at scrape time. -/
def maxDependsDepth : Nat := 16

namespace Store

def isFailingLocked (s : Store) (now : Time) (kind : Kind) (name : NamespacedName) : Bool :=
  match kind with
  | .httpProbe | .dnsProbe | .tcpProbe =>
      match s.probes.lookup ⟨kind, name⟩ with
      | some state => state.result ≠ .ok
      | none => false
  | .k6Test | .playwrightTest =>
      match s.tests.lookup ⟨kind, name⟩ with
      | some state => state.result ≠ .ok
      | none => false
  | .heartbeat =>
      match s.heartbeats.lookup ⟨kind, name⟩ with
      -- a suspended heartbeat is not evaluated
      | some state => !state.suspended && decide (heartbeatResult (state.evaluate now) ≠ .ok)
      | none => false
  | .other _ => false

/-- The walk with `room = maxDependsDepth - depth` levels left.  `.error` is a
failing dependency; `.ok` is none found, with the visited map left behind. -/
def walkDepsLocked (s : Store) (now : Time) (ns : String) :
    Nat → List DependencyRef → Finset CrKey → Except DependencyRef (Finset CrKey)
  | 0, _, visited => .ok visited
  | room + 1, deps, visited =>
      deps.foldlM
        (fun visited dep =>
          let key := dep.key ns
          if key ∈ visited then .ok visited
          else
            match walkDepsLocked s now ns room ((s.depends.lookup key).getD [])
              (insert key visited) with
            | .error deeper => .error deeper
            | .ok visited =>
                if s.isFailingLocked now dep.kind key.name then .error dep else .ok visited)
        visited

def findUnhealthyDep (s : Store) (now : Time) (originKind : Kind) (origin : NamespacedName) :
    Option DependencyRef :=
  match s.walkDepsLocked now origin.ns maxDependsDepth
    ((s.depends.lookup ⟨originKind, origin⟩).getD []) {⟨originKind, origin⟩} with
  | .error failing => some failing
  | .ok _ => none

end Store

end SyntheticsOperator.Metrics
