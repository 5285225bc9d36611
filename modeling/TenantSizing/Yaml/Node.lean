import TenantSizing.Yaml.Tag

namespace TenantSizing.Yaml

/-- The position of a node in the list of all nodes. An alias makes a node stand in several places,
even inside itself. -/
abbrev Ref := Nat

inductive Content where
  | scalar (text : String)
  | sequence (items : List Ref)
  | mapping (entries : List (Ref × Ref))
  deriving DecidableEq, Repr

structure Node where
  tag : Tag
  content : Content
  deriving DecidableEq, Repr

abbrev Nodes := Array Node

namespace Nodes

/-- The tag of a node; a position without a node has that of null. -/
def tag (nodes : Nodes) (ref : Ref) : Tag :=
  (nodes[ref]?.map Node.tag).getD .null

/-- What a node consists of; a position without a node counts as an empty text. -/
def content (nodes : Nodes) (ref : Ref) : Content :=
  (nodes[ref]?.map Node.content).getD (.scalar "")

/-- The entries of a mapping; any other node has none. -/
def entries (nodes : Nodes) (ref : Ref) : List (Ref × Ref) :=
  match nodes.content ref with
  | .mapping entries => entries
  | _ => []

def setTag (nodes : Nodes) (ref : Ref) (tag : Tag) : Nodes :=
  nodes.modify ref fun node => { node with tag }

def setContent (nodes : Nodes) (ref : Ref) (content : Content) : Nodes :=
  nodes.modify ref fun node => { node with content }

end Nodes

end TenantSizing.Yaml
