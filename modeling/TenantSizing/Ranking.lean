import TenantSizing.Quantity
import TenantSizing.Tree.Basic

namespace TenantSizing

def sizeProfiles : List String :=
  ["starterset", "small", "medium", "large"]

/-- The position of a size profile. White space around it and case are ignored; only ASCII letters
have the letters of a profile as their lower case. -/
def profileRank? (name : String) : Option Nat :=
  sizeProfiles.findIdx? fun profile => profile.toList = (Text.trim name.toList).map Char.toLower

/-- What a value weighs, within its class. -/
inductive Rank where
  | flag (value : Bool)
  | profile (position : Nat)
  | quantity (amount : Quantity)
  deriving DecidableEq, Repr

/-- The first rank is strictly the greater, and of the same class: a value is never ordered against
one of another class. -/
def Rank.above : Rank → Rank → Bool
  | .flag a, .flag b => a && !b
  | .profile m, .profile n => n < m
  | .quantity p, .quantity q => q.lt p
  | _, _ => false

namespace Scalar

/-- The quantity that a number or a text stands for. A number with a fraction weighs what its
shortest numeral says. -/
def quantity? : Scalar → Option Quantity
  | .int n => some (.ofInt n)
  | .float x => x.toDecimal?.map Quantity.ofDecimal
  | .text s => Quantity.read? s
  | _ => none

def profileRank? : Scalar → Option Nat
  | .text s => TenantSizing.profileRank? s
  | _ => none

/-- No size profile reads as a quantity, so a value has at most one rank. -/
def rank? : Scalar → Option Rank
  | .bool value => some (.flag value)
  | s =>
    match s.profileRank? with
    | some position => some (.profile position)
    | none => s.quantity?.map .quantity

def above (a b : Scalar) : Bool :=
  match a.rank?, b.rank? with
  | some p, some q => p.above q
  | _, _ => false

/-- The greater of two scalars; the first if neither is greater. -/
def larger (a b : Scalar) : Scalar :=
  if b.above a then b else a

/-- The lesser of two scalars; the first if neither is less. -/
def smaller (a b : Scalar) : Scalar :=
  if a.above b then b else a

end Scalar

namespace Tree

def quantity? : Tree → Option Quantity
  | .scalar s => s.quantity?
  | _ => none

def profileRank? : Tree → Option Nat
  | .scalar s => s.profileRank?
  | _ => none

def larger : Tree → Tree → Tree
  | .scalar a, .scalar b => .scalar (a.larger b)
  | a, _ => a

def smaller : Tree → Tree → Tree
  | .scalar a, .scalar b => .scalar (a.smaller b)
  | a, _ => a

end Tree

end TenantSizing
