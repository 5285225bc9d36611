import TenantSizing.Proofs.Choices
import TenantSizing.Proofs.Convergence

namespace TenantSizing

open TenantSizing.Tree Job

section Round

variable {r : Reconciler} {cluster : Cluster} {configs : List Tree} {modes : Tree}
  {choice : Nat → Option Request} {x : Extreme} {i : Nat} {service : Tree} {request : Request}

end Round

end TenantSizing
