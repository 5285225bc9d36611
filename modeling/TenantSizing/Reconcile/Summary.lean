import TenantSizing.Reconcile.Request

namespace TenantSizing

/-- One tenant's wish for one operand, as it is folded into the summary. -/
structure Wish where
  operand : Tree
  independent : Bool
  /-- How messages name the tenant. -/
  owner : String
  spec : Entries
  resources : List Tree

namespace Wish

variable (scope : Scope) (wish : Wish)

/-- In a summary comparable fields grow, and other scalars stay with the first tenant. -/
def policy : MergePolicy where
  directAssign := false

/-- The kinds that the rules know, each as far as it may be summed up. -/
def governedKinds : List (String × Entries × Tree) :=
  wish.spec.filterMap fun entry =>
    (scope.rules.forKind? wish.operand entry.1).map fun rules =>
      (entry.1, rules, scope.release wish.independent wish.operand entry.1 entry.2)

def heldKind (spec : Entries) (kind : String) : Tree :=
  ((spec.lookup kind).getD .null).orElse (.map [])

def foldKind (spec : Entries) (entry : String × Entries × Tree) : Entries :=
  let (kind, rules, wanted) := entry
  Keyed.insert spec kind ((heldKind spec kind).filteredMerge policy rules false wanted)

def kindNotices (spec : Entries) (entry : String × Entries × Tree) : List Notice :=
  let (kind, rules, wanted) := entry
  ((heldKind spec kind).filteredMergeClashes rules false wanted).map .clash

/-- Folds one resource override into those held: it is merged into the one of its identity, or put
behind the others. -/
def foldResource (held : List Tree) (resource : Tree) : List Tree :=
  let identity := (Identity.raw resource).placedIn scope.space
  let wanted := releasedResource wish.independent resource
  match identity.position? held scope.space with
  | some position => held.modify position fun other => other.merge policy none wanted
  | none => held ++ [wanted]

def resourceNotices (held : List Tree) (resource : Tree) : List Notice :=
  let identity := (Identity.raw resource).placedIn scope.space
  let wanted := releasedResource wish.independent resource
  match identity.find? held scope.space with
  | some other => (other.mergeClashes [] wanted).map .clash
  | none => []

def fold (summary : List Tree) : Report (List Tree) := do
  let held := (Services.find? summary wish.operand).getD (.map [])
  let spec ← .foldNoted foldKind kindNotices (held.get "spec").entries (wish.governedKinds scope)
  let summary := Services.setSpec summary wish.operand (.map spec)
  .note (incompleteNotices wish.resources wish.owner)
  let resources ← .foldNoted (wish.foldResource scope) (wish.resourceNotices scope)
    (held.get "resources").items (completeResources wish.resources)
  pure (Services.setResources summary wish.operand (.list resources))

end Wish

def foldService (scope : Scope) (modes : Keyed String) (owner : String) (summary : List Tree)
    (service : Tree) : Report (List Tree) := do
  let operand := service.get "name"
  let mode ← .ofExcept (Mode.resolveFor modes operand)
  let wish : Wish :=
    { operand, owner
      independent := Mode.isIndependent mode
      spec := (service.get "spec").entries
      resources := (service.get "resources").items }
  wish.fold scope summary

def foldTenant (scope : Scope) (modes : Keyed String) (summary : List Tree)
    (contribution : Contribution) : Report (List Tree) :=
  contribution.services.foldlM (foldService scope modes contribution.key) summary

/-- The summary of contributions, folded in turn. -/
def summarize (scope : Scope) (modes : Keyed String) (contributions : List Contribution) :
    Report (List Tree) :=
  contributions.foldlM (foldTenant scope modes) []

end TenantSizing
