import TenantSizing.Proofs.Configs
import TenantSizing.Proofs.Demands

namespace TenantSizing

open Job

/-- In nothing that a reconcile reads is there a number that equals nothing, or a map with a key
twice. -/
structure Comparable (r : Reconciler) (cluster : Cluster) : Prop where
  tenants : cluster.tenants.regular Scalar.isComparable = true
  templates : ∀ tree, r.templates = some tree → tree.regular Scalar.isComparable = true
  config : ∀ config, cluster.config = some config → config.regular Scalar.isComparable = true

variable {r : Reconciler}

namespace Demand.From

variable {rules : RuleSet} {tenants : Tree} {contributions : List Contribution} {demand : Demand}
  {services : List Tree} {x y : Extreme}

end Demand.From

namespace Reading

variable {cluster after : Cluster}

variable (reading : Reading r cluster) {x y : Extreme} {services : List Tree}

end Reading

theorem Comparable.stored {cluster after : Cluster} (h : Comparable r cluster)
    (reading : Reading r cluster) {services : List Tree}
    (hs : ∀ service ∈ services, service.regular Scalar.isComparable = true)
    (hc : after.config = some (Reconciler.withServices reading.config services))
    (ht : after.tenants = cluster.tenants) : Comparable r after where
  tenants := ht ▸ h.tenants
  templates := h.templates
  config := by
    intro config he
    obtain rfl := Option.some.inj (hc.symm.trans he)
    refine Tree.regular_updateMap (fun entries hm => ?_) (h.config _ reading.stored)
    exact Tree.regular_insert hm (Tree.regular_list.mpr hs)

namespace Reconciler

/-- A reconcile that no single tenant has triggered: a resync grows the OperandConfig, and what
follows a deletion shrinks it. -/
def pass (r : Reconciler) : Extreme → Job Bool
  | .max => r.update [] (.map [])
  | .min => r.shrink

end Reconciler

namespace Settled

variable {x y : Extreme} {p q : Progress}

end Settled

end TenantSizing
