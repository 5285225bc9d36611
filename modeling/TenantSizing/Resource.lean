import TenantSizing.Failure
import TenantSizing.Tree.Equality

namespace TenantSizing

namespace Identity

/-- The identity that a resource override states. Fields that are no strings count as empty. -/
def raw (resource : Tree) : Identity where
  space := (resource.get "namespace").string
  apiVersion := (resource.get "apiVersion").string
  kind := (resource.get "kind").string
  name := (resource.get "name").string

def complete (identity : Identity) : Bool :=
  identity.apiVersion ≠ "" && identity.kind ≠ "" && identity.name ≠ ""

/-- A resource without a namespace lives in the given one. -/
def placedIn (identity : Identity) (fallback : String) : Identity :=
  { identity with space := if identity.space = "" then fallback else identity.space }

/-- The identity of a resource override, or what it states if that is incomplete. -/
def read (resource : Tree) (fallback : String) : Except Identity Identity :=
  if (raw resource).complete then .ok ((raw resource).placedIn fallback) else .error (raw resource)

/-- A map that states exactly these texts; a missing namespace counts as the fallback. -/
def holds (identity : Identity) (fallback : String) (resource : Tree) : Bool :=
  resource.get "apiVersion" = .text identity.apiVersion &&
    resource.get "kind" = .text identity.kind &&
    resource.get "name" = .text identity.name &&
    ((raw resource).placedIn fallback).space = identity.space

def find? (items : List Tree) (identity : Identity) (fallback : String) : Option Tree :=
  items.find? (identity.holds fallback)

def position? (items : List Tree) (identity : Identity) (fallback : String) : Option Nat :=
  items.findIdx? (identity.holds fallback)

end Identity

end TenantSizing
