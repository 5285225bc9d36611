import TenantSizing.Failure
import TenantSizing.Tree.Equality

namespace TenantSizing

/-- What a tree offers one by one: the items of a list, the keys of a map, the characters of a
text. Other trees offer nothing and cannot be gone through. -/
def Tree.elements? : Tree → Except Failure (List Tree)
  | .list items => .ok items
  | .map entries => .ok (entries.map fun entry => .text entry.1)
  | .text value => .ok (value.toList.map fun c => .text c.toString)
  | .scalar _ => .error .wrongShape

/-- The same, where a tree that counts as false offers nothing. -/
def Tree.elementsOrNone? (tree : Tree) : Except Failure (List Tree) :=
  if tree.truthy then tree.elements? else .ok []

/-- The items of a list; only a list can be added to. -/
def Tree.listOrFail : Tree → Except Failure (List Tree)
  | .list items => .ok items
  | _ => .error .wrongShape

namespace Services

/-- A map whose `name` is the given one. A missing name is null. -/
def isNamed (name item : Tree) : Bool :=
  item.isMap && (item.get "name").agrees name

def find? (items : List Tree) (name : Tree) : Option Tree :=
  items.find? (isNamed name)

def position? (items : List Tree) (name : Tree) : Option Nat :=
  items.findIdx? (isNamed name)

def change (items : List Tree) (name : Tree) (f : Tree → Tree) : List Tree :=
  match items with
  | [] => []
  | item :: rest => if isNamed name item then f item :: rest else item :: change rest name f

/-- Sets a field of the first map of that name; if there is none, the stub is put behind the
others. -/
def set (items : List Tree) (name : Tree) (field : String) (value : Tree) (stub : Entries) :
    List Tree :=
  match items with
  | [] => [.map stub]
  | item :: rest =>
    if isNamed name item then .map (Keyed.insert item.entries field value) :: rest
    else item :: set rest name field value stub

def setSpec (items : List Tree) (name spec : Tree) : List Tree :=
  set items name "spec" spec [("name", name), ("spec", spec), ("resources", .list [])]

def setResources (items : List Tree) (name resources : Tree) : List Tree :=
  set items name "resources" resources [("name", name), ("spec", .map []), ("resources", resources)]

theorem isNamed_text {item : Tree} {name : String} :
    isNamed (.text name) item = true ↔ item.get "name" = .text name := by
  constructor
  · intro h
    exact (Tree.agrees_text _ _).mp (Bool.and_eq_true_iff.mp h).2
  · intro h
    have map : item.isMap = true := by
      cases item <;> simp_all [Tree.get, Tree.entries, Tree.isMap]
    simp [isNamed, map, (Tree.agrees_text _ _).mpr h]

end Services

end TenantSizing
