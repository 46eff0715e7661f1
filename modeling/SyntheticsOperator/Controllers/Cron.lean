import SyntheticsOperator.Api.Webhooks
import SyntheticsOperator.Probes.Offsets

/-!
# Cron schedules

The schedule of a test that runs as a CronJob.
-/

namespace SyntheticsOperator.Controllers

open SyntheticsOperator.Api (minutes)
open SyntheticsOperator.Probes (probeOffset)
open SyntheticsOperator.Support

/-- The cron expression for an interval, shifted by the offset of the test. -/
def intervalToCron (ns name : String) (interval : Duration) : Except String String :=
  let totalMinutes := minutes interval
  if totalMinutes < 1 then .error "interval must be at least 1m (cron resolution)"
  else
    let offsetMinutes := minutes (probeOffset ns name interval)
    if totalMinutes = 1 then .ok "* * * * *"
    else if totalMinutes < 60 then
      if 60 % totalMinutes ≠ 0 then
        .error ("sub-hour intervals must evenly divide 60 " ++
          "(valid: 2m, 3m, 4m, 5m, 6m, 10m, 12m, 15m, 20m, 30m)")
      else
        .ok (toString (offsetMinutes % totalMinutes) ++ "/" ++ toString totalMinutes ++ " * * * *")
    else if totalMinutes % 60 ≠ 0 then .error "intervals >= 1h must be whole hours"
    else
      let hours := totalMinutes / 60
      if hours > 24 ∨ 24 % hours ≠ 0 then
        .error ("hour intervals must evenly divide 24 " ++
          "(valid: 1h, 2h, 3h, 4h, 6h, 8h, 12h, 24h)")
      else if hours = 24 then
        .ok (toString (offsetMinutes % 60) ++ " " ++ toString (offsetMinutes / 60 % 24) ++
          " * * *")
      else .ok (toString (offsetMinutes % 60) ++ " */" ++ toString hours ++ " * * *")

/-- `none` is `("", false)`. -/
def validSchedule (ns name : String) (interval : Duration) : Option String :=
  (intervalToCron ns name interval).toOption

end SyntheticsOperator.Controllers
