import SyntheticsOperator.Api.Identity
import SyntheticsOperator.Support.GoStrings
import SyntheticsOperator.Support.GoTime

/-!
# Offsets

A stable offset below the interval, so that probes and tests with one interval do not all
run at the same time, and the delay until the clock is next at that offset.
-/

namespace SyntheticsOperator.Probes

open SyntheticsOperator.Support

/-- `fnv.New64a`, after writing the bytes. -/
def fnv64a (bytes : GoString) : UInt64 :=
  bytes.foldl (fun sum c => (sum ^^^ c.toUInt64) * 1099511628211) 14695981039346656037

def probeOffsetHash (identity : GoString) (interval : Duration) : Duration :=
  if interval ≤ 0 then 0
  else ((fnv64a identity &&& 0x7FFFFFFFFFFFFFFF).toNat : Int) % interval

theorem probeOffsetHash_nonneg (identity : GoString) (interval : Duration) :
    0 ≤ probeOffsetHash identity interval := by
  unfold probeOffsetHash
  split
  · exact Int.le_refl 0
  · rename_i hpos
    exact Int.emod_nonneg _ (Int.ne_of_gt (Int.not_le.mp hpos))

theorem probeOffsetHash_lt (identity : GoString) {interval : Duration} (hpos : 0 < interval) :
    probeOffsetHash identity interval < interval := by
  unfold probeOffsetHash
  rw [if_neg (Int.not_le.mpr hpos)]
  exact Int.emod_lt_of_pos _ hpos

def probeOffset (ns name : String) (interval : Duration) : Duration :=
  probeOffsetHash (GoString.lit (ns ++ "/" ++ name)) interval

def probeOffsetForKind (kind : Api.Kind) (ns name : String) (interval : Duration) : Duration :=
  probeOffsetHash (GoString.lit (kind.text ++ "/" ++ ns ++ "/" ++ name)) interval

def initialDelay (now : Time) (interval offset : Duration) : Duration :=
  if interval ≤ 0 then 0
  else
    let elapsed := Int.tmod now.unixNano interval
    let delay := int64 (offset - elapsed)
    if delay ≤ 0 then int64 (delay + interval) else delay

end SyntheticsOperator.Probes
