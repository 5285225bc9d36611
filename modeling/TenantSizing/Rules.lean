import TenantSizing.Failure
import TenantSizing.Rules.Builtin
import TenantSizing.Yaml.Value.Document

namespace TenantSizing

structure OperandSpec where
  written : Yaml.Value
  rules : Tree

/-- The spec of each operand's last record. -/
structure RuleSet where
  specs : Keyed OperandSpec

namespace RuleSet

def spec? (rules : RuleSet) (operand : String) : Option Yaml.Value :=
  ((rules.specs.lookup operand).map OperandSpec.written).filter Yaml.Value.isMapping

def kindSpec? (rules : RuleSet) (operand kind : String) : Option Yaml.Value :=
  ((rules.spec? operand).bind (·.get? kind)).filter Yaml.Value.isMapping

/-- The rules of one kind of an operand. An operand whose name is no string has none. -/
def forKind? (rules : RuleSet) (operand : Tree) (kind : String) : Option Entries :=
  match operand with
  | .text name => (rules.specs.lookup name).bind fun spec => (spec.rules.get kind).entries?
  | _ => none

def readRecord (position : Nat) (record : Yaml.Value) (rules : Tree) :
    Except RulesFault (String × OperandSpec) :=
  match record.get? "name" with
  | some (.text name) =>
    let written := (record.get? "spec").getD .null
    if written.isNull || written.isMapping then .ok (name, { written, rules := rules.get "spec" })
    else .error (.specNotAMap name)
  | _ => .error (.unnamed position)

def readRecords (records : List (Yaml.Value × Tree)) :
    Except RulesFault (List (String × OperandSpec)) :=
  records.zipIdx.mapM fun ((record, rules), position) => readRecord position record rules

def ofDocument (written : Yaml.Value) (rules : Tree) : Except RulesFault RuleSet :=
  let indexed (records : List (Yaml.Value × Tree)) : Except RulesFault RuleSet :=
    (readRecords records).map fun named =>
      { specs := named.foldl (fun specs record => Keyed.insert specs record.1 record.2) [] }
  match written with
  | .null => indexed []
  | .sequence records => indexed (records.zip rules.items)
  | .pairs records => indexed (records.map fun _ => (.null, .null))
  | other => .error (.notAList other.typeWord)

def failureOf : Yaml.Fault → Failure
  | .malformed => .malformedRules .unparsable
  | .noSuchValue => .noSuchValue
  | .emptyNumber => .emptyNumber
  | .wrongShape => .wrongShape
  | .numberTooLarge => .numberTooLarge
  | .tooDeep => .tooDeep

def read (text : String) : Except Failure RuleSet :=
  match Yaml.Document.read text with
  | .error fault => .error (failureOf fault)
  | .ok document => (ofDocument document.value document.tree).mapError .malformedRules

end RuleSet

inductive RulesFile where
  | missing
  | directory
  | bytes (content : List UInt8)

namespace RulesFile

/-- Every line break of a file reads as a line feed. -/
def unifyBreaks : List Char → List Char
  | [] => []
  | '\r' :: '\n' :: rest => '\n' :: unifyBreaks rest
  | '\r' :: rest => '\n' :: unifyBreaks rest
  | c :: rest => c :: unifyBreaks rest

/-- The text of a rules file, which has to be valid UTF-8. -/
def read : RulesFile → Except Failure String
  | .missing => .error (.malformedRules .unreadable)
  | .directory => .error (.malformedRules .unreadable)
  | .bytes content =>
    match String.fromUTF8? ⟨content.toArray⟩ with
    | some text => .ok (String.ofList (unifyBreaks text.toList))
    | none => .error .undecodable

end RulesFile

end TenantSizing
