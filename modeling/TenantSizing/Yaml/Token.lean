namespace TenantSizing.Yaml

inductive Fault where
  /-- The text is no document, or has a tag or a reference that nobody knows. -/
  | malformed
  /-- A scalar has the form of a number or a date, but there is no such one. -/
  | noSuchValue
  /-- A scalar tagged as a number has no character. -/
  | emptyNumber
  /-- A scalar does not have the form its tag asks for. -/
  | wrongShape
  /-- A number is too large for what it is used for. -/
  | numberTooLarge
  /-- Collections stand in each other too deep, or a reference leads around in a circle. -/
  | tooDeep
  deriving DecidableEq, Repr

/-- The most digits that a decimal number may be written with. -/
def maxDigits : Nat := 4300

/-- How deep collections may stand in each other. -/
def maxDepth : Nat := 490

inductive Directive where
  | version (major : Nat)
  | tag (handle uri : String)
  | other
  deriving DecidableEq, Repr

inductive Token where
  | directive (directive : Directive)
  | documentStart
  | documentEnd
  | blockSequenceStart
  | blockMappingStart
  | blockEnd
  | flowSequenceStart
  | flowSequenceEnd
  | flowMappingStart
  | flowMappingEnd
  | blockEntry
  | flowEntry
  | key
  | value
  | alias (name : String)
  | anchor (name : String)
  | tag (handle : Option String) (rest : String)
  | scalar (text : String) (plain : Bool)
  | streamEnd
  /-- The text cannot be read any further. -/
  | fault (fault : Fault)
  deriving DecidableEq, Repr

end TenantSizing.Yaml
