import TenantSizing.Tree.Basic

namespace TenantSizing

namespace Scalar

/-- Equality by value. Booleans equal booleans only, and `nan` equals nothing. -/
def same : Scalar → Scalar → Bool
  | .null, .null => true
  | .bool a, .bool b => a = b
  | .int m, .int n => m = n
  | .int n, .float x => x.sameInt n
  | .float x, .int n => x.sameInt n
  | .float x, .float y => x.same y
  | .text s, .text t => s = t
  | _, _ => false

/-- A boolean as the number 0 or 1; any other scalar stays. -/
def boolAsInt : Scalar → Scalar
  | .bool value => .int (if value then 1 else 0)
  | other => other

/-- Equality by value where a boolean counts as the number 0 or 1. -/
def agrees (a b : Scalar) : Bool :=
  same a.boolAsInt b.boolAsInt

end Scalar

namespace Tree

mutual

/-- Equality of trees, given the equality of scalars. -/
def sameBy (eq : Scalar → Scalar → Bool) : Tree → Tree → Bool
  | .scalar a, .scalar b => eq a b
  | .list xs, .list ys => sameItemsBy eq xs ys
  | .map xs, .map ys => ys.all (fun entry => Keyed.has xs entry.1) && sameEntriesBy eq xs ys
  | _, _ => false

def sameItemsBy (eq : Scalar → Scalar → Bool) : List Tree → List Tree → Bool
  | [], [] => true
  | x :: xs, y :: ys => sameBy eq x y && sameItemsBy eq xs ys
  | _, _ => false

/-- Each of the first entries has an equal value at its key among the second ones. -/
def sameEntriesBy (eq : Scalar → Scalar → Bool) : Entries → Entries → Bool
  | [], _ => true
  | (key, x) :: xs, ys =>
    (match ys.lookup key with
      | some y => sameBy eq x y
      | none => false) && sameEntriesBy eq xs ys

end

/-- Two trees are the same if nothing but the order of map entries or the spelling of a number
tells them apart. -/
def same (a b : Tree) : Bool :=
  sameBy Scalar.same a b

def agrees (a b : Tree) : Bool :=
  sameBy Scalar.agrees a b

theorem agrees_text (tree : Tree) (name : String) :
    tree.agrees (.text name) = true ↔ tree = .text name := by
  cases tree with
  | scalar s => cases s <;> simp [agrees, sameBy, Scalar.agrees, Scalar.boolAsInt, Scalar.same]
  | list xs => simp [agrees, sameBy]
  | map xs => simp [agrees, sameBy]

end Tree

end TenantSizing
