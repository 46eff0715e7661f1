import SyntheticsOperator.Controllers.Kube

/-!
# Status conditions

What the reconcilers of all kinds write to the status of a resource.
-/

namespace SyntheticsOperator.Controllers

open SyntheticsOperator.Api
open SyntheticsOperator.Support

def setSuspendedCondition (kube : Kube) (conditions : List Condition) (generation : Int)
    (suspended : Bool) (now : Time) : List Condition :=
  kube.setStatusCondition conditions
    (if suspended then
      ⟨"Suspended", true, generation, now, "Suspended", "probe execution is suspended"⟩
    else ⟨"Suspended", false, generation, now, "Resumed", "probe execution is active"⟩)

def probeStatusChanged (beforeGen afterGen : Int) (beforeConds afterConds : List Condition) :
    Bool :=
  beforeGen ≠ afterGen || beforeConds ≠ afterConds

end SyntheticsOperator.Controllers
