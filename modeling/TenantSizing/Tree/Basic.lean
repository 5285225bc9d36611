import TenantSizing.Keyed
import TenantSizing.Number.Binary64

namespace TenantSizing

inductive Scalar where
  | null
  | bool (value : Bool)
  | int (value : Int)
  | float (value : Binary64)
  | text (value : String)
  deriving DecidableEq, Repr

/-- An untyped configuration tree. A map keeps the order in which its keys were first set. That no
key is there twice cannot be a field of the map, which is nested in its own type: `regular` says it
of a whole tree. -/
inductive Tree where
  | scalar (value : Scalar)
  | list (items : List Tree)
  | map (entries : List (String × Tree))
  deriving Repr

abbrev Entries := Keyed Tree

/-- The shape of a node. The null value is a scalar. -/
inductive Kind where
  | scalar
  | list
  | map
  deriving DecidableEq, Repr

def Kind.word : Kind → String
  | .scalar => "scalar"
  | .list => "list"
  | .map => "map"

namespace Tree

mutual

/-- Trees are equal if they are built alike, order of entries included. -/
def decEq : (a b : Tree) → Decidable (a = b)
  | .scalar a, .scalar b => decidable_of_iff (a = b) (by simp)
  | .list xs, .list ys =>
    have := decEqItems xs ys
    decidable_of_iff (xs = ys) (by simp)
  | .map xs, .map ys =>
    have := decEqEntries xs ys
    decidable_of_iff (xs = ys) (by simp)
  | .scalar _, .list _ => isFalse (by simp)
  | .scalar _, .map _ => isFalse (by simp)
  | .list _, .scalar _ => isFalse (by simp)
  | .list _, .map _ => isFalse (by simp)
  | .map _, .scalar _ => isFalse (by simp)
  | .map _, .list _ => isFalse (by simp)

def decEqItems : (xs ys : List Tree) → Decidable (xs = ys)
  | [], [] => isTrue rfl
  | [], _ :: _ => isFalse (by simp)
  | _ :: _, [] => isFalse (by simp)
  | x :: xs, y :: ys =>
    have := decEq x y
    have := decEqItems xs ys
    decidable_of_iff (x = y ∧ xs = ys) (by simp)

def decEqEntries : (xs ys : List (String × Tree)) → Decidable (xs = ys)
  | [], [] => isTrue rfl
  | [], _ :: _ => isFalse (by simp)
  | _ :: _, [] => isFalse (by simp)
  | (k, x) :: xs, (l, y) :: ys =>
    have := decEq x y
    have := decEqEntries xs ys
    decidable_of_iff ((k = l ∧ x = y) ∧ xs = ys) (by simp)

end

instance : DecidableEq Tree := decEq

/-- The null tree, which also stands for a value that is not there. -/
@[match_pattern] abbrev null : Tree := .scalar .null

@[match_pattern] abbrev text (value : String) : Tree := .scalar (.text value)

@[match_pattern] abbrev bool (value : Bool) : Tree := .scalar (.bool value)

@[match_pattern] abbrev int (value : Int) : Tree := .scalar (.int value)

instance : Inhabited Tree := ⟨.null⟩

def kind : Tree → Kind
  | .scalar _ => .scalar
  | .list _ => .list
  | .map _ => .map

def isNull : Tree → Bool
  | .null => true
  | _ => false

def isMap : Tree → Bool
  | .map _ => true
  | _ => false

def entries? : Tree → Option Entries
  | .map entries => some entries
  | _ => none

def items? : Tree → Option (List Tree)
  | .list items => some items
  | _ => none

/-- The entries of a map; anything else has none. -/
def entries : Tree → Entries
  | .map entries => entries
  | _ => []

/-- The items of a list; anything else has none. -/
def items : Tree → List Tree
  | .list items => items
  | _ => []

/-- The value of a string; anything else counts as the empty string. -/
def string : Tree → String
  | .text value => value
  | _ => ""

/-- The value at a key of a map, null if there is none. -/
def get (tree : Tree) (key : String) : Tree :=
  (tree.entries.lookup key).getD .null

/-- Sets a key of a map; anything else stays. -/
def set (tree : Tree) (key : String) (value : Tree) : Tree :=
  match tree with
  | .map entries => .map (Keyed.insert entries key value)
  | other => other

/-- Follows keys through nested maps; null if a step is missing. -/
def follow (tree : Tree) (keys : List String) : Tree :=
  keys.foldl get tree

/-- A value counts as false if it is null, false, zero, or empty. -/
def truthy : Tree → Bool
  | .scalar .null => false
  | .scalar (.bool value) => value
  | .scalar (.int value) => value ≠ 0
  | .scalar (.float value) => !value.isZero
  | .scalar (.text value) => value ≠ ""
  | .list items => !items.isEmpty
  | .map entries => !entries.isEmpty

/-- The tree, or `other` if it counts as false. -/
def orElse (tree other : Tree) : Tree :=
  if tree.truthy then tree else other

@[simp] theorem follow_nil (tree : Tree) : tree.follow [] = tree := rfl

@[simp] theorem follow_cons (tree : Tree) (key : String) (keys : List String) :
    tree.follow (key :: keys) = (tree.get key).follow keys := rfl

@[simp] theorem get_null (key : String) : Tree.null.get key = .null := rfl

theorem get_map (entries : Entries) (key : String) :
    (Tree.map entries).get key = (entries.lookup key).getD .null := rfl

theorem get_insert (entries : Entries) (key other : String) (value : Tree) :
    (Tree.map (Keyed.insert entries key value)).get other =
      if other = key then value else (Tree.map entries).get other := by
  by_cases h : other = key <;> simp [get_map, Keyed.lookup_insert, h]

theorem get_of_not_map {tree : Tree} (h : tree.isMap = false) (key : String) :
    tree.get key = .null := by
  cases tree <;> simp_all [isMap, get, entries]

@[simp] theorem follow_null (keys : List String) : Tree.null.follow keys = .null := by
  induction keys with
  | nil => rfl
  | cons key keys ih => simpa using ih

end Tree

end TenantSizing
