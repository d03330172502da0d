import StationGateway.Error
import StationGateway.Quota.Plan
import StationGateway.Time.Instant

/-!
# Limits on history

A plan allows a number of days of history in one request, counted between calendar dates.
-/

namespace StationGateway.Quota

/-- Refuses a range of more days than the plan allows. An open range ends now. -/
def checkHistory (allowances : Allowances) (plan : Plan) (now first : Time.Instant)
    (last : Option Time.Instant) : Except GatewayError Unit :=
  match allowances.limits? plan with
  | none => .ok ()
  | some limits =>
      if Time.daysBetween first (last.getD now) > limits.days then
        .error (.historicRangeExceeded limits.days plan.name allowances.historyPage)
      else .ok ()

end StationGateway.Quota
