import TenantSizing.Merge.Prune
import TenantSizing.Ranking
import TenantSizing.Tree.Equality
import TenantSizing.Tree.Path

namespace TenantSizing

/-- The scalar fields that tenants raise or lower by order. -/
def comparableKeys : List String :=
  ["replicas", "cpu", "memory", "profile", "fipsEnabled", "fips_enabled", "instances",
    "max_connections", "shared_buffers"]

/-- A place where a tree of another kind was requested than there is. -/
structure Clash where
  path : Path
  expected : Kind
  found : Kind
  deriving DecidableEq, Repr

/-- How two scalars at one place are resolved. -/
structure MergePolicy where
  /-- The requested scalar wins. Otherwise the current one does, but for comparable keys. -/
  directAssign : Bool
  /-- Under these keys the larger scalar wins unless the request is assigned directly. -/
  comparable : List String := comparableKeys
  deriving DecidableEq, Repr

/-- Resolves two scalars, where `key` is the last map key above them. -/
def MergePolicy.resolve (policy : MergePolicy) (key : Option String) (current request : Scalar) :
    Scalar :=
  if policy.directAssign then request
  else if key.any policy.comparable.contains then current.larger request
  else current

namespace Tree

mutual

/-- Merges a request into the current tree. Maps unite their keys, lists are merged by position,
and a null gives way to the other side. -/
def merge (policy : MergePolicy) (key : Option String) (current request : Tree) : Tree :=
  if current.same request then request
  else
    match current, request with
    | current, .scalar .null => current
    | .scalar .null, request => request
    | .map cs, .map rs => .map (mergeEntries policy cs rs ++ Keyed.without rs cs)
    | .list xs, .list ys => .list (mergeItems policy key xs ys)
    | .scalar a, .scalar b => .scalar (policy.resolve key a b)
    | current, _ => current

def mergeItems (policy : MergePolicy) (key : Option String) : List Tree → List Tree → List Tree
  | [], ys => ys
  | xs, [] => xs
  | x :: xs, y :: ys => merge policy key x y :: mergeItems policy key xs ys

def mergeEntries (policy : MergePolicy) : Entries → Entries → Entries
  | [], _ => []
  | (key, c) :: cs, rs =>
    (key, merge policy (some key) c ((rs.lookup key).getD .null)) :: mergeEntries policy cs rs

end

mutual

/-- The places where `merge` keeps the current tree because the request is of another kind, in the
order of the current tree. -/
def mergeClashes (path : Path) (current request : Tree) : List Clash :=
  if current.same request then []
  else
    match current, request with
    | _, .scalar .null => []
    | .scalar .null, _ => []
    | .map cs, .map rs => mergeEntriesClashes path cs rs
    | .list xs, .list ys => mergeItemsClashes path 0 xs ys
    | .scalar _, .scalar _ => []
    | current, request => [⟨path, current.kind, request.kind⟩]

def mergeItemsClashes (path : Path) (position : Nat) : List Tree → List Tree → List Clash
  | x :: xs, y :: ys =>
    mergeClashes (path ++ [.index position]) x y ++ mergeItemsClashes path (position + 1) xs ys
  | _, _ => []

def mergeEntriesClashes (path : Path) : Entries → Entries → List Clash
  | [], _ => []
  | (key, c) :: cs, rs =>
    mergeClashes (path ++ [.key key]) c ((rs.lookup key).getD .null) ++
      mergeEntriesClashes path cs rs

end

/-- Merges a request into the current tree. Unless `overwrite` is set, the fields that the rules do
not govern are first dropped from both sides. -/
def filteredMerge (policy : MergePolicy) (rules : Entries) (overwrite : Bool)
    (current request : Tree) : Tree :=
  if overwrite then merge policy none current request
  else merge policy none (current.prune rules) (request.prune rules)

def filteredMergeClashes (rules : Entries) (overwrite : Bool) (current request : Tree) :
    List Clash :=
  if overwrite then mergeClashes [] current request
  else mergeClashes [] (current.prune rules) (request.prune rules)

end Tree

end TenantSizing
