import StationGateway.Proofs.Tree.Refused

/-!
# The cap as a guard

A capped tree is grown in step with the same tree without a cap: a row is checked only after it has
been added. So the cap never changes a result, it only refuses it, and it does so from the first prefix
of the rows on that is estimated above the cap. -/

namespace StationGateway.Tree

/-! ## Rows -/

namespace Growth

variable {plan : Plan} {row : Row} {rows : List Row} {growth : Growth} {list : TargetList}
  {error : GatewayError}

end Growth

/-! ## Trees -/

section

variable (catalogue : Catalogue) (entry : String) (exits : List ExitPoint) (showNull : Bool)

variable {catalogue entry exits showNull} {cap limit : Int} {rows front : List Row} {first : Row}
  {plan : Plan}

end

end StationGateway.Tree
