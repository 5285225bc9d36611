import TenantSizing.Contribution
import TenantSizing.Merge.Filtered
import TenantSizing.Merge.Managed
import TenantSizing.Resource
import TenantSizing.Rules

namespace TenantSizing

/-- What a reconcile knows beside the trees that it merges. -/
structure Scope where
  rules : RuleSet
  /-- The namespace of resources that name none. -/
  space : String
  /-- How messages name the OperandConfig. -/
  config : String

namespace Scope

/-- The tree of one kind without the fields of an independent controller, if there is one. -/
def release (scope : Scope) (independent : Bool) (operand : Tree) (kind : String) (tree : Tree) :
    Tree :=
  if independent then tree.dropManaged resetKeys ((scope.rules.forKind? operand kind).getD [])
  else tree

end Scope

/-- A resource override as far as it may be merged. -/
def releasedResource (independent : Bool) (resource : Tree) : Tree :=
  if independent then resource.dropCpuLimit else resource

/-- The resource overrides that say what they override. -/
def completeResources (resources : List Tree) : List Tree :=
  resources.filter fun resource => (Identity.raw resource).complete

def incompleteNotices (resources : List Tree) (owner : String) : List Notice :=
  (resources.filter fun resource => !(Identity.raw resource).complete).map
    fun resource => .tenantResourceSkipped (Identity.raw resource) owner

structure Request where
  operand : String
  independent : Bool
  /-- The requested kinds. -/
  spec : Entries
  /-- The resource overrides, if there is a list of them. -/
  resources : Option (List Tree)

namespace Request

/-- A request with the mode that holds for its operand. -/
def ofConfig (config : Tree) (independent : Bool) : Request where
  operand := (config.get "name").string
  independent := independent
  spec := (config.get "spec").entries
  resources := (config.get "resources").items?

/-- The request of a config, once what it asks for has been copied. -/
def read (config : Tree) (independent : Bool) : Except Failure Request := do
  let _ ← ((config.get "spec").entries.map Prod.snd).mapM Tree.copy
  let _ ← (config.get "resources").items.mapM Tree.copy
  pure (ofConfig config independent)

variable (scope : Scope) (request : Request)

def kindPolicy (kind : String) : MergePolicy where
  directAssign := (scope.rules.forKind? (.text request.operand) kind).isSome

def wanted (kind : String) : Tree :=
  scope.release request.independent (.text request.operand) kind
    ((request.spec.lookup kind).getD .null)

/-- One kind of the service after the request. -/
def applyKind (kind : String) (current : Tree) : Tree :=
  let held := scope.release request.independent (.text request.operand) kind current
  let wanted := request.wanted scope kind
  if held.isMap && wanted.isMap then held.merge (request.kindPolicy scope kind) none wanted
  else held

def kindNotices (kind : String) (current : Tree) : List Notice :=
  let held := scope.release request.independent (.text request.operand) kind current
  let wanted := request.wanted scope kind
  if wanted.isNull then []
  else if held.isMap && wanted.isMap then (held.mergeClashes [] wanted).map .clash
  else [.kindSkipped request.operand kind]

def overrideFor? (overrides : List Tree) (resource : Tree) : Option Tree :=
  match Identity.read resource scope.space with
  | .ok identity =>
    (identity.find? overrides scope.space).map (releasedResource request.independent)
  | .error _ => none

def applyResource (overrides : List Tree) (resource : Tree) : Tree :=
  match request.overrideFor? scope overrides resource with
  | some wanted => resource.merge { directAssign := true } none wanted
  | none => resource

def resourceNotices (overrides : List Tree) (resource : Tree) : List Notice :=
  match Identity.read resource scope.space with
  | .error raw => [.configResourceSkipped raw scope.config]
  | .ok _ =>
    match request.overrideFor? scope overrides resource with
    | some wanted => (resource.mergeClashes [] wanted).map .clash
    | none => []

def applyKinds (kinds : Entries) : Entries :=
  kinds.map fun entry => (entry.1, request.applyKind scope entry.1 entry.2)

/-- The service after the request. It keeps its kinds and the number of its resources. -/
def apply (service : Tree) : Tree :=
  let service :=
    match service.get "spec" with
    | .map kinds => service.set "spec" (.map (request.applyKinds scope kinds))
    | _ => service
  match service.get "resources", request.resources with
  | .list held, some wanted =>
    service.set "resources"
      (.list (held.map (request.applyResource scope (completeResources wanted))))
  | _, _ => service

def notices (service : Tree) : List Notice :=
  ((service.get "spec").entries.flatMap fun entry => request.kindNotices scope entry.1 entry.2) ++
    match service.get "resources", request.resources with
    | .list held, some wanted =>
      incompleteNotices wanted ("service config " ++ request.operand) ++
        held.flatMap (request.resourceNotices scope (completeResources wanted))
    | _, _ => []

end Request

/-- Applies one service config of a tenant. It has to be a map, and an operand that is not in the
OperandConfig is passed over. -/
def applyConfig (scope : Scope) (modes : Tree) (services : List Tree) (config : Tree) :
    Report (List Tree) :=
  match config with
  | .map _ =>
    let operand := (config.get "name").string
    match Services.find? services (.text operand) with
    | none => pure services
    | some service => do
      let mode ← .ofExcept (Mode.resolveTree modes operand)
      let independent ← .ofExcept (Mode.treeIsIndependent mode)
      let request ← .ofExcept (Request.read config independent)
      .note (request.notices scope service)
      pure (Services.change services (.text operand) (request.apply scope))
  | .null => pure services
  | other => do
    .note [.configNotAMap other.typeWord]
    pure services

def applyConfigs (scope : Scope) (modes : Tree) (services : List Tree) (configs : List Tree) :
    Report (List Tree) :=
  configs.foldlM (applyConfig scope modes) services

end TenantSizing
