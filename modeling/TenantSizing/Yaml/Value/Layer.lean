import TenantSizing.Yaml.Node
import TenantSizing.Yaml.Token
import TenantSizing.Yaml.Value

namespace TenantSizing.Yaml

/-- The outermost layer of a value, over what stands for the values below. -/
inductive Layer (α : Type) where
  | atom (value : Atom)
  | sequence (items : List α)
  | pairs (entries : List (α × α))
  | set (members : List Atom)
  | mapping (entries : List (Atom × α))
  deriving DecidableEq, Repr

namespace Layer

variable {α : Type}

/-- The empty collection that a tag stands for; none if the tag is that of a scalar. -/
def empty? : Tag → Option (Layer α)
  | .seq => some (.sequence [])
  | .map => some (.mapping [])
  | .set => some (.set [])
  | .omap | .pairs => some (.pairs [])
  | _ => none

/-- A layer over what is known of the layers below; none if something is missing. -/
def over? (known : Array (Option α)) : Layer Ref → Option (Layer α)
  | .atom value => some (.atom value)
  | .sequence items => sequence <$> items.mapM below
  | .pairs entries =>
    pairs <$> entries.mapM fun (key, value) => do pure (← below key, ← below value)
  | .set members => some (.set members)
  | .mapping entries =>
    mapping <$> entries.mapM fun (key, value) => do pure (key, ← below value)
where
  below (ref : Ref) : Option α := known[ref]?.join

def toValue : Layer Value → Value
  | .atom value => .atom value
  | .sequence items => .sequence items
  | .pairs entries => .pairs entries
  | .set members => .set members
  | .mapping entries => .mapping entries

/-- The layer as one of a tree of rules. It has no place for keys that are no strings, and a value
that no tree holds counts by being there and no map. -/
def toTree : Layer Tree → Tree
  | .atom value => .scalar (value.scalar?.getD (.text ""))
  | .sequence items => .list items
  | .mapping entries => .map (entries.filterMap fun
    | (.scalar (.text key), value) => some (key, value)
    | _ => none)
  | _ => .text ""

end Layer

/-- What stands in several places of a document is one layer with several references to it. -/
structure Document where
  layers : Array (Layer Ref)
  root : Ref
  deriving DecidableEq, Repr

namespace Document

variable {α : Type}

def null : Document :=
  { layers := #[.atom (.scalar .null)], root := 0 }

/-- Puts layers together over those that are known, from the last one to the first: mostly a layer
comes before those below it. -/
def settle (whole : Layer α → α) (document : Document) (known : Array (Option α)) :
    Array (Option α) :=
  (List.range document.layers.size).foldr (fun ref known =>
    match known[ref]?.join, document.layers[ref]? with
    | none, some layer => known.setIfInBounds ref ((layer.over? known).map whole)
    | _, _ => known) known

/-- Goes on until nothing is found any more. `fuel` bounds the number of layers. -/
def settleAll (whole : Layer α → α) (document : Document) :
    Nat → Array (Option α) → Array (Option α)
  | 0, known => known
  | fuel + 1, known =>
    let missing (known : Array (Option α)) : Nat := known.countP Option.isNone
    let more := document.settle whole known
    if missing more = 0 || missing more = missing known then more
    else settleAll whole document fuel more

/-- Puts layers inside themselves together, too, where what is `depth` layers down is cut off. -/
def cutOff (whole : Layer α → α) (cut : α) (document : Document) (known : Array (Option α)) :
    Nat → Array (Option α)
  | 0 => known.map fun value => some (value.getD cut)
  | depth + 1 =>
    let below := cutOff whole cut document known depth
    known.zipWith (fun value layer =>
      match value with
      | some value => some value
      | none => (layer.over? below).map whole) document.layers

/-- Puts the layers of a document together. What is inside itself has no end, and is cut off deeper
than any document goes by itself. -/
def unfold (whole : Layer α → α) (cut : α) (document : Document) : α :=
  let size := document.layers.size
  let known := document.settleAll whole size (Array.replicate size none)
  match known[document.root]?.join with
  | some value => value
  | none =>
    ((document.cutOff whole cut known (maxDepth + 10))[document.root]?.join).getD cut

def value (document : Document) : Value :=
  document.unfold Layer.toValue .null

def tree (document : Document) : Tree :=
  document.unfold Layer.toTree .null

end Document

end TenantSizing.Yaml
