import TenantSizing.Failure
import TenantSizing.Tree.Basic

namespace TenantSizing

namespace Tree

/-- A rule lets a value through if it is there and, for a map, is itself a map. -/
def admits (rule value : Tree) : Bool :=
  !rule.isNull && (!value.isMap || rule.isMap)

mutual

/-- Drops the fields of a map that the rules do not govern, at every depth. Lists and scalars are
kept whole once their key has a rule. -/
def prune : Tree → Entries → Tree
  | .map entries, rules => .map (pruneEntries entries rules)
  | tree, _ => tree

def pruneEntries : Entries → Entries → Entries
  | [], _ => []
  | (key, value) :: rest, rules =>
    let rule := (rules.lookup key).getD .null
    if rule.admits value then (key, prune value rule.entries) :: pruneEntries rest rules
    else pruneEntries rest rules

end

/-- Prunes a tree by rules that nobody has checked. Only a map can be pruned, and unless it is
empty, rules that count as true have to be a map. -/
def pruneBy (tree rules : Tree) : Except Failure Tree :=
  match tree with
  | .map entries =>
    if entries.isEmpty || !rules.truthy || rules.isMap then .ok (tree.prune rules.entries)
    else .error .wrongShape
  | _ => .error .wrongShape

end Tree

end TenantSizing
