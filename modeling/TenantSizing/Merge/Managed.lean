import TenantSizing.Tree.Basic

namespace TenantSizing

/-- The keys of the fields that an independent controller owns. -/
def resetKeys : List String :=
  ["replicas", "cpu", "memory"]

namespace Tree

mutual

/-- Removes the fields that the rules govern and whose key is in `reset`. Only paths that are maps
in both the tree and the rules are followed. -/
def dropManaged (reset : List String) : Tree → Entries → Tree
  | .map entries, rules => .map (dropManagedEntries reset entries rules)
  | tree, _ => tree

def dropManagedEntries (reset : List String) : Entries → Entries → Entries
  | [], _ => []
  | (key, value) :: rest, rules =>
    let rule := (rules.lookup key).getD .null
    if !rule.isNull && !value.isMap && reset.contains key then
      dropManagedEntries reset rest rules
    else (key, dropManaged reset value rule.entries) :: dropManagedEntries reset rest rules

end

/-- Replaces the map at a path of keys. Nothing changes if a step is missing or no map is there. -/
def updateMap (tree : Tree) (keys : List String) (change : Entries → Entries) : Tree :=
  match keys, tree with
  | [], .map entries => .map (change entries)
  | key :: keys, .map entries =>
    match entries.lookup key with
    | some value => .map (Keyed.insert entries key (value.updateMap keys change))
    | none => tree
  | _, _ => tree

def dropCpuLimit (resource : Tree) : Tree :=
  resource.updateMap ["data", "spec", "resources", "limits"] fun limits => Keyed.erase limits "cpu"

end Tree

end TenantSizing
