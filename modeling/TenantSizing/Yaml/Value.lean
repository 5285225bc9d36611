import TenantSizing.Tree.Equality
import TenantSizing.Yaml.Calendar

namespace TenantSizing.Yaml

/-- A value that is no collection. Only such a value can be a key. -/
inductive Atom where
  | scalar (value : Scalar)
  /-- What the word `.nan` stands for. Unlike other numbers without a value, it is one key. -/
  | noNumber
  | date (day : Day)
  | moment (day : Day) (clock : Clock)
  | bytes (data : List UInt8)
  deriving DecidableEq, Repr

namespace Atom

/-- Two keys are one key if they have the same value; a boolean counts as 0 or 1. -/
def same : Atom → Atom → Bool
  | .scalar a, .scalar b => a.agrees b
  | .noNumber, .noNumber => true
  | .date a, .date b => a = b
  | .moment a s, .moment b t => Clock.sameMoment a s b t
  | .bytes a, .bytes b => a = b
  | _, _ => false

/-- How messages name the type of a value. -/
def typeWord : Atom → String
  | .scalar .null => "NoneType"
  | .scalar (.bool _) => "bool"
  | .scalar (.int _) => "int"
  | .scalar (.float _) => "float"
  | .scalar (.text _) => "str"
  | .noNumber => "float"
  | .date _ => "date"
  | .moment _ _ => "datetime"
  | .bytes _ => "bytes"

def scalar? : Atom → Option Scalar
  | .scalar value => some value
  | .noNumber => some (.float .nan)
  | _ => none

end Atom

/-- Unlike a tree, a document has keys that are no strings, and dates. -/
inductive Value where
  | atom (value : Atom)
  | sequence (items : List Value)
  /-- A list of pairs, which stands for a map that may have a key twice. -/
  | pairs (entries : List (Value × Value))
  | set (members : List Atom)
  | mapping (entries : List (Atom × Value))

namespace Value

@[match_pattern] abbrev null : Value := .atom (.scalar .null)

@[match_pattern] abbrev text (value : String) : Value := .atom (.scalar (.text value))

def get? (value : Value) (key : String) : Option Value :=
  match value with
  | .mapping entries =>
    (entries.find? fun entry => entry.1 = .scalar (.text key)).map Prod.snd
  | _ => none

def isMapping : Value → Bool
  | .mapping _ => true
  | _ => false

def isNull : Value → Bool
  | .null => true
  | _ => false

def typeWord : Value → String
  | .atom value => value.typeWord
  | .sequence _ => "list"
  | .pairs _ => "list"
  | .set _ => "set"
  | .mapping _ => "dict"

/-- Whether a value has at most `depth` collections in each other. One inside itself has more. -/
def isWithin : Nat → Value → Bool
  | depth + 1, .sequence items => items.all (isWithin depth)
  | depth + 1, .mapping entries => entries.all fun entry => isWithin depth entry.2
  | 0, .sequence _ => false
  | 0, .mapping _ => false
  | _, _ => true

end Value

end TenantSizing.Yaml
