import TenantSizing.Merge.Extreme
import TenantSizing.Reconcile.Summary

namespace TenantSizing

/-- The summary of one operand, as it is merged into its service. -/
structure Target where
  extreme : Extreme
  operand : String
  independent : Bool
  /-- The entry of the summary; null if no tenant asks for the operand. -/
  summed : Tree

namespace Target

variable (scope : Scope) (target : Target)

/-- One kind of the service at the summary's target. A kind that no tenant asks for stays. -/
def applyKind (kind : String) (current : Tree) : Tree :=
  let held := scope.release target.independent (.text target.operand) kind current
  let summed := target.summed.follow ["spec", kind]
  if summed.isNull then held else held.extremeMerge target.extreme summed

def kindNotices (kind : String) (current : Tree) : List Notice :=
  let held := scope.release target.independent (.text target.operand) kind current
  let summed := target.summed.follow ["spec", kind]
  if summed.isNull then [] else (held.extremeClashes [] summed).map .clash

def overrideFor? (resource : Tree) : Option Tree :=
  match Identity.read resource scope.space with
  | .ok identity => identity.find? (target.summed.get "resources").items scope.space
  | .error _ => none

def applyResource (resource : Tree) : Tree :=
  match target.overrideFor? scope resource with
  | some summed => resource.extremeMerge target.extreme summed
  | none => resource

def resourceNotices (resource : Tree) : List Notice :=
  match Identity.read resource scope.space with
  | .error raw => [.configResourceSkipped raw scope.config]
  | .ok _ =>
    match target.overrideFor? scope resource with
    | some summed => (resource.extremeClashes [] summed).map .clash
    | none => []

def applyKinds (kinds : Entries) : Entries :=
  kinds.map fun entry => (entry.1, target.applyKind scope entry.1 entry.2)

/-- The service at the summary's target. It keeps its kinds and the number of its resources. -/
def apply (service : Tree) : Tree :=
  let service :=
    match service.get "spec" with
    | .map kinds => service.set "spec" (.map (target.applyKinds scope kinds))
    | _ => service
  match service.get "resources" with
  | .list held => service.set "resources" (.list (held.map (target.applyResource scope)))
  | _ => service

def notices (service : Tree) : List Notice :=
  ((service.get "spec").entries.flatMap fun entry => target.kindNotices scope entry.1 entry.2) ++
    if (target.summed.get "resources").items.isEmpty then []
    else (service.get "resources").items.flatMap (target.resourceNotices scope)

end Target

def targetOf (modes : Keyed String) (extreme : Extreme) (summary : List Tree) (service : Tree) :
    Target :=
  let operand := (service.get "name").string
  { extreme, operand
    independent := Mode.isIndependent (Mode.resolve Mode.fallback modes operand)
    summed := (Services.find? summary (.text operand)).getD .null }

/-- One entry of the list of services; what is not a map stays. -/
def applySummaryTo (scope : Scope) (modes : Keyed String) (extreme : Extreme) (summary : List Tree)
    (service : Tree) : Tree :=
  if service.isMap then (targetOf modes extreme summary service).apply scope service else service

def summaryNotices (scope : Scope) (modes : Keyed String) (extreme : Extreme) (summary : List Tree)
    (service : Tree) : List Notice :=
  if service.isMap then (targetOf modes extreme summary service).notices scope service else []

def applySummary (scope : Scope) (modes : Keyed String) (extreme : Extreme) (summary : List Tree)
    (services : List Tree) : List Tree :=
  services.map (applySummaryTo scope modes extreme summary)

/-- What the tenants ask for together: the modes gathered from them, and their summary. -/
structure Demand where
  modes : Keyed String
  summary : List Tree

def readDemand (scope : Scope) (templates : Option Tree) (tenants : List Tree) : Report Demand := do
  let contributions ← tenants.mapM (Contribution.read templates)
  let modes := Mode.gather (contributions.map Contribution.modes)
  let summary ← summarize scope modes contributions
  pure { modes, summary }

def meetDemand (scope : Scope) (extreme : Extreme) (demand : Demand) (services : List Tree) :
    Report (List Tree) := do
  .note (services.flatMap (summaryNotices scope demand.modes extreme demand.summary))
  pure (applySummary scope demand.modes extreme demand.summary services)

/-- The same for services that nobody has checked: only in a list there is anything to merge, and
what cannot be gone through stops the work. -/
def meetDemandOn (scope : Scope) (extreme : Extreme) (demand : Demand) (services : Tree) :
    Report Tree :=
  match services with
  | .list items => Tree.list <$> meetDemand scope extreme demand items
  | .map _ => pure services
  | .text _ => pure services
  | .scalar _ => .fail .wrongShape

end TenantSizing
