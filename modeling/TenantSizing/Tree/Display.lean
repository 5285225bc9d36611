import TenantSizing.Text.Quoted
import TenantSizing.Tree.Basic

namespace TenantSizing

def shownBool (value : Bool) : String :=
  if value then "True" else "False"

namespace Scalar

/-- A scalar inside a list or a map: a text is quoted there. -/
def display : Scalar → String
  | .null => "None"
  | .bool value => shownBool value
  | .int n => toString n
  | .float x => x.toText
  | .text s => Text.quoted s

def typeWord : Scalar → String
  | .null => "NoneType"
  | .bool _ => "bool"
  | .int _ => "int"
  | .float _ => "float"
  | .text _ => "str"

end Scalar

namespace Tree

mutual

def display : Tree → String
  | .scalar value => value.display
  | .list items => "[" ++ ", ".intercalate (displayItems items) ++ "]"
  | .map entries => "\x7b" ++ ", ".intercalate (displayEntries entries) ++ "\x7d"

def displayItems : List Tree → List String
  | [] => []
  | item :: rest => display item :: displayItems rest

def displayEntries : Entries → List String
  | [] => []
  | (key, value) :: rest => (Text.quoted key ++ ": " ++ display value) :: displayEntries rest

end

/-- A tree as part of a sentence: a text stands there as it is. -/
def shown : Tree → String
  | .text value => value
  | tree => tree.display

def typeWord : Tree → String
  | .scalar value => value.typeWord
  | .list _ => "list"
  | .map _ => "dict"

end Tree

end TenantSizing
