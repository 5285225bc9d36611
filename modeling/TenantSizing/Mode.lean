import TenantSizing.Failure
import TenantSizing.Tree.Basic

namespace TenantSizing

namespace Mode

def independentModes : List String :=
  ["turbo", "turbonomic", "vpa"]

/-- The key of the mode that covers every operand without one of its own. -/
def tenantWide : String := "profileController"

def fallback : String := "default"

def isIndependent (mode : String) (independent : List String := independentModes) : Bool :=
  independent.contains mode

variable {μ : Type}

/-- Adds one declaration. The first mode of a key stays, unless it is not independent and the new
one is. -/
def declare (independent : μ → Bool) (modes : Keyed μ) (key : String) (mode : μ) : Keyed μ :=
  match modes.lookup key with
  | none => Keyed.insert modes key mode
  | some held =>
    if independent mode && !independent held then Keyed.insert modes key mode else modes

def merge (independent : μ → Bool) (modes incoming : Keyed μ) : Keyed μ :=
  incoming.foldl (fun modes entry => declare independent modes entry.1 entry.2) modes

/-- The mode of an operand: its own, or else the tenant-wide one. -/
def resolve (fallback : μ) (modes : Keyed μ) (operand : String) : μ :=
  match modes.lookup operand with
  | some mode => mode
  | none => (modes.lookup tenantWide).getD fallback

def gather (tenants : List (Keyed String)) : Keyed String :=
  tenants.foldl (merge isIndependent) []

theorem lookup_declare (independent : μ → Bool) (modes : Keyed μ) (key other : String) (mode : μ) :
    (declare independent modes key mode).lookup other =
      if other = key then
        match modes.lookup key with
        | none => some mode
        | some held => if independent mode && !independent held then some mode else some held
      else modes.lookup other := by
  simp only [declare]
  by_cases same : other = key
  · subst same
    cases held : modes.lookup other with
    | none => simp [Keyed.lookup_insert]
    | some held' =>
      by_cases wins : (independent mode && !independent held') = true
      · simp [wins, Keyed.lookup_insert]
      · simp [wins, held]
  · cases held : modes.lookup key with
    | none => simp [Keyed.lookup_insert, same]
    | some held' =>
      by_cases wins : (independent mode && !independent held') = true
      · simp [wins, same, Keyed.lookup_insert]
      · simp [wins, same]

/-- Whether a tree is the name of an independent mode; a list or a map cannot be asked. -/
def treeIsIndependent (mode : Tree) (independent : List String := independentModes) :
    Except Failure Bool :=
  match mode with
  | .text name => .ok (independent.contains name)
  | .scalar _ => .ok false
  | _ => .error .wrongShape

def resolveTree (modes : Tree) (operand : String) : Except Failure Tree :=
  match modes with
  | .map entries => .ok (resolve (.text fallback) entries operand)
  | _ => .error .wrongShape

/-- The mode of an operand whose name may be any tree. A list or a map is no name, and a name that
is no string has no mode of its own. -/
def resolveFor (modes : Keyed String) (operand : Tree) : Except Failure String :=
  match operand with
  | .text name => .ok (resolve fallback modes name)
  | .scalar _ => .ok ((modes.lookup tenantWide).getD fallback)
  | _ => .error .wrongShape

def toTree (modes : Keyed String) : Tree :=
  .map (modes.map fun entry => (entry.1, .text entry.2))

end Mode

end TenantSizing
