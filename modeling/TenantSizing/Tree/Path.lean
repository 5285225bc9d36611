import TenantSizing.Tree.Basic

namespace TenantSizing

inductive Step where
  | key (name : String)
  | index (position : Nat)
  deriving DecidableEq, Repr

abbrev Path := List Step

namespace Path

def toText (path : Path) : String :=
  path.foldl (fun text step =>
    match step with
    | .key name => if text = "" then name else text ++ "." ++ name
    | .index position => text ++ "[" ++ toString position ++ "]") ""

def shown (path : Path) : String :=
  let text := path.toText
  if text = "" then "<root>" else text

end Path

namespace Tree

/-- The child that a step leads to. A step of the wrong kind leads nowhere. -/
def child? : Tree → Step → Option Tree
  | .map entries, .key name => entries.lookup name
  | .list items, .index position => items[position]?
  | _, _ => none

def at? (tree : Tree) : Path → Option Tree
  | [] => some tree
  | step :: path => (tree.child? step).bind fun child => child.at? path

@[simp] theorem at?_nil (tree : Tree) : tree.at? [] = some tree := rfl

theorem at?_cons (tree : Tree) (step : Step) (path : Path) :
    tree.at? (step :: path) = (tree.child? step).bind fun child => child.at? path := rfl

end Tree

end TenantSizing
