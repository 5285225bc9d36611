import TenantSizing.Mode
import TenantSizing.Services

namespace TenantSizing

namespace Mode

abbrev Unchecked := List (Scalar × Tree)

namespace Unchecked

/-- Sets a key. A key that is there keeps its place and its spelling. -/
def insert (modes : Unchecked) (key : Scalar) (mode : Tree) : Unchecked :=
  match modes with
  | [] => [(key, mode)]
  | (k, held) :: rest =>
    if k.agrees key then (k, mode) :: rest else (k, held) :: insert rest key mode

def lookup? (modes : Unchecked) (key : Scalar) : Option Tree :=
  (modes.find? fun entry => entry.1.agrees key).map Prod.snd

def pair? (tree : Tree) : Except Failure (Scalar × Tree) := do
  match ← tree.elements? with
  | [.scalar key, mode] => .ok (key, mode)
  | [_, _] => .error .wrongShape
  | _ => .error .noSuchValue

/-- The modes of a map, or of the pairs that any other tree offers. -/
def ofTree : Tree → Except Failure Unchecked
  | .map entries => .ok (entries.map fun entry => (.text entry.1, entry.2))
  | tree => do
    (← tree.elements?).foldlM (fun modes item => do
      let (key, mode) ← pair? item
      pure (insert modes key mode)) []

/-- Adds one declaration as `Mode.declare` does. The mode held is only asked about if the new one is
independent. -/
def declare (independent : List String) (modes : Unchecked) (key : String) (mode : Tree) :
    Except Failure Unchecked :=
  match modes.lookup? (.text key) with
  | none => .ok (modes.insert (.text key) mode)
  | some held => do
    if ← treeIsIndependent mode independent then
      if ← treeIsIndependent held independent then .ok modes
      else .ok (modes.insert (.text key) mode)
    else .ok modes

def merge (held incoming : Tree) (independent : List String := independentModes) :
    Except Failure Unchecked := do
  let modes ← ofTree held
  match incoming with
  | .map new => new.foldlM (fun modes entry => declare independent modes entry.1 entry.2) modes
  | _ => .error .wrongShape

end Unchecked

end Mode

end TenantSizing
