import TenantSizing.Yaml.Node.Assembly
import TenantSizing.Yaml.Node.Merge
import TenantSizing.Yaml.Token.Reader
import TenantSizing.Yaml.Value.Layer
import TenantSizing.Yaml.Value.Scalar

namespace TenantSizing.Yaml

namespace Nodes

/-- The text of a node under the tag of a scalar. A mapping stands for the value of its key `=`;
`fuel` bounds how often. -/
def text (nodes : Nodes) : Nat → Ref → Except Fault String
  | 0, _ => .error .tooDeep
  | fuel + 1, ref =>
    match nodes.content ref with
    | .scalar text => .ok text
    | .sequence _ => .error .malformed
    | .mapping entries =>
      match entries.find? fun entry => nodes.tag entry.1 = .value with
      | some entry => nodes.text fuel entry.2
      | none => .error .malformed

/-- The value of a node under the tag of a scalar. A point in time is always written out. -/
def atom (nodes : Nodes) (ref : Ref) : Except Fault Atom :=
  match nodes.tag ref with
  | .merge | .value | .other _ => .error .malformed
  | tag => do
    let text ← nodes.text (nodes.size + 1) ref
    match tag, nodes.content ref with
    | .timestamp, .mapping _ => .error .wrongShape
    | tag, _ => Atom.ofText tag text

end Nodes

/-- A document that is being read: its nodes, the layers found so far, and the collections that are
still to be filled, the last one first. -/
structure Filling where
  nodes : Nodes
  layers : Array (Option (Layer Ref))
  waiting : List Ref := []

abbrev Fill := StateT Filling (Except Fault)

namespace Fill

def setLayer (ref : Ref) (layer : Layer Ref) : Fill Unit :=
  modify fun f => { f with layers := f.layers.setIfInBounds ref (some layer) }

/-- The layer of a node. A collection is empty at first. -/
def begin (ref : Ref) : Fill (Layer Ref) := do
  let f ← get
  match f.layers[ref]?.join with
  | some layer => pure layer
  | none =>
    match Layer.empty? (f.nodes.tag ref) with
    | some layer =>
      setLayer ref layer
      modify fun f => { f with waiting := ref :: f.waiting }
      pure layer
    | none =>
      let layer := Layer.atom (← f.nodes.atom ref)
      setLayer ref layer
      pure layer

/-- An entry of a mapping: the node and the value of its key, and the node behind it. -/
structure Entry where
  node : Ref
  key : Atom
  value : Ref

/-- Sets a key. A key that is there keeps its place and its spelling. A node is one key with itself,
even if its value does not equal itself. -/
def Entry.insert (entries : List Entry) (new : Entry) : List Entry :=
  match entries with
  | [] => [new]
  | old :: rest =>
    if old.node = new.node || old.key.same new.key then { old with value := new.value } :: rest
    else old :: insert rest new

def entries (fuel : Nat) (ref : Ref) : Fill (List Entry) := do
  let f ← get
  let (_, nodes) ← (Merging.carryOut fuel ref []).run f.nodes
  set { f with nodes }
  (nodes.entries ref).foldlM (fun entries (node, value) => do
    match ← begin node with
    | .atom key =>
      let _ ← begin value
      pure (Entry.insert entries { node, key, value })
    | _ => throw .malformed) []

def pair (ref : Ref) : Fill (Ref × Ref) := do
  match (← get).nodes.content ref with
  | .mapping [(key, value)] =>
    let _ ← begin key
    let _ ← begin value
    pure (key, value)
  | _ => throw .malformed

/-- Fills a collection. `fuel` bounds the number of merge keys. -/
def fill (fuel : Nat) (ref : Ref) : Fill Unit := do
  let nodes := (← get).nodes
  let layer : Layer Ref ←
    match nodes.tag ref, nodes.content ref with
    | .seq, .sequence items =>
      let _ ← items.mapM begin
      pure (.sequence items)
    | .map, .mapping _ =>
      let entries ← entries fuel ref
      pure (.mapping (entries.map fun entry => (entry.key, entry.value)))
    | .set, .mapping _ =>
      let entries ← entries fuel ref
      pure (.set (entries.map Entry.key))
    | .omap, .sequence items | .pairs, .sequence items =>
      pure (.pairs (← items.mapM pair))
    | _, _ => throw .malformed
  setLayer ref layer

/-- Fills the collections that wait, and then those that began to wait meanwhile. `depth` bounds how
often there are such. -/
def fillAll (fuel : Nat) : Nat → Fill Unit
  | 0 => pure ()
  | depth + 1 => do
    let waiting := (← get).waiting
    if !waiting.isEmpty then
      modify fun f => { f with waiting := [] }
      waiting.reverse.forM (fill fuel)
      fillAll fuel depth

end Fill

/-- Reads the only document of a text. A text without a document is null. Collections are filled
from the outside in, so of several faults the one nearest to the root is reported. -/
def Document.read (text : String) : Except Fault Document := do
  let tokens := Token.ofText text
  match ← Nodes.ofTokens? tokens with
  | (_, none) => pure .null
  | (nodes, some root) =>
    let work : Fill Unit := do
      let _ ← Fill.begin root
      Fill.fillAll (tokens.length + 1) (nodes.size + 1)
    let (_, f) ← work.run { nodes, layers := Array.replicate nodes.size none }
    pure { layers := f.layers.map fun layer => layer.getD (.atom (.scalar .null)), root }

end TenantSizing.Yaml
