import TenantSizing.Tree.Basic

namespace TenantSizing

namespace Tenant

/-- The label that marks a copy of another CommonService. -/
def cloneLabel : String :=
  "operator.ibm.com/common-services.cloned-from"

def space (tenant : Tree) : String :=
  (tenant.follow ["metadata", "namespace"]).string

def name (tenant : Tree) : String :=
  (tenant.follow ["metadata", "name"]).string

/-- A tenant with a deletion timestamp is going away. -/
def isBeingDeleted (tenant : Tree) : Bool :=
  (tenant.follow ["metadata", "deletionTimestamp"]).truthy

/-- The label alone marks a clone, whatever its value. -/
def isClone (tenant : Tree) : Bool :=
  Keyed.has (tenant.follow ["metadata", "labels"]).entries cloneLabel

def isLive (tenant : Tree) : Bool :=
  !isClone tenant && !isBeingDeleted tenant

/-- The first tenant comes no later than the second: by namespace, then by name. -/
def inOrder (a b : Tree) : Bool :=
  space a < space b || (space a = space b && !(name b < name a))

/-- Puts a tenant in front of the first one that it comes no later than. -/
def insertInOrder (tenant : Tree) : List Tree → List Tree
  | [] => [tenant]
  | other :: rest =>
    if inOrder tenant other then tenant :: other :: rest else other :: insertInOrder tenant rest

/-- Tenants in order. Those of one namespace and name stay as they were among themselves. -/
def sorted : List Tree → List Tree
  | [] => []
  | tenant :: rest => insertInOrder tenant (sorted rest)

/-- The tenants that count, in the order in which they are folded. -/
def live (tenants : List Tree) : List Tree :=
  sorted (tenants.filter isLive)

theorem insertInOrder_perm (tenant : Tree) (tenants : List Tree) :
    (insertInOrder tenant tenants).Perm (tenant :: tenants) := by
  induction tenants with
  | nil => exact .refl _
  | cons other rest ih =>
    by_cases h : inOrder tenant other = true
    · simp [insertInOrder, h]
    · simp only [insertInOrder, h]
      exact (ih.cons other).trans (.swap tenant other rest)

theorem sorted_perm (tenants : List Tree) : (sorted tenants).Perm tenants := by
  induction tenants with
  | nil => exact .refl _
  | cons tenant rest ih => exact (insertInOrder_perm tenant (sorted rest)).trans (ih.cons tenant)

theorem mem_live {tenant : Tree} {tenants : List Tree} :
    tenant ∈ live tenants ↔ tenant ∈ tenants ∧ isLive tenant = true := by
  rw [live, (sorted_perm _).mem_iff, List.mem_filter]

end Tenant

end TenantSizing
