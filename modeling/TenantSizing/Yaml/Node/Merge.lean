import TenantSizing.Yaml.Node
import TenantSizing.Yaml.Token

namespace TenantSizing.Yaml

abbrev Merging := StateT Nodes (Except Fault)

namespace Merging

/-- Takes the first merge key out of a mapping, and gives what it merges. The key vanishes before
the merged entries are looked at, so a mapping may merge one that it stands in, and gets what is
there by then. -/
def takeMerge (ref : Ref) : Merging (Option Ref) := do
  let nodes ← get
  let entries := nodes.entries ref
  let isMerge (entry : Ref × Ref) : Bool := nodes.tag entry.1 = .merge
  match entries.find? isMerge with
  | none => pure none
  | some entry =>
    set (nodes.setContent ref (.mapping (entries.eraseP isMerge)))
    pure (some entry.2)

/-- Puts entries in front of those of a mapping, whose keys `=` are plain texts from now on. -/
def adopt (ref : Ref) (adopted : List (Ref × Ref)) : Merging Unit :=
  modify fun nodes =>
    let entries := nodes.entries ref
    let nodes := entries.foldl (fun nodes entry =>
      if nodes.tag entry.1 = .value then nodes.setTag entry.1 .str else nodes) nodes
    if adopted.isEmpty then nodes else nodes.setContent ref (.mapping (adopted ++ entries))

/-- Carries out the merge keys of a mapping. Of a list of mappings the last one comes first. `fuel`
bounds the number of merge keys in the document. -/
def carryOut : Nat → Ref → List (Ref × Ref) → Merging Unit
  | 0, _, _ => throw .malformed
  | fuel + 1, ref, adopted => do
    match ← takeMerge ref with
    | none => adopt ref adopted
    | some source =>
      let merged (source : Ref) : Merging (List (Ref × Ref)) := do
        match (← get).content source with
        | .mapping _ =>
          carryOut fuel source []
          pure ((← get).entries source)
        | _ => throw .malformed
      let more ←
        match (← get).content source with
        | .sequence items => (fun groups => groups.reverse.flatten) <$> items.mapM merged
        | _ => merged source
      carryOut fuel ref (adopted ++ more)

end Merging

end TenantSizing.Yaml
