namespace TenantSizing

structure ApiFault where
  status : Option Int
  reason : Option String
  deriving DecidableEq, Repr

namespace ApiFault

def statusText (fault : ApiFault) : String :=
  match fault.status with
  | some status => toString status
  | none => "None"

def reasonText (fault : ApiFault) : String :=
  fault.reason.getD "None"

def summary (fault : ApiFault) : String :=
  fault.statusText ++ " " ++ fault.reasonText

def message (fault : ApiFault) : String :=
  "(" ++ fault.statusText ++ ")\nReason: " ++ fault.reasonText ++ "\n"

end ApiFault

structure Identity where
  space : String
  apiVersion : String
  kind : String
  name : String
  deriving DecidableEq, Repr

inductive RulesFault where
  | unreadable
  | unparsable
  | notAList (found : String)
  | unnamed (position : Nat)
  | specNotAMap (name : String)
  deriving DecidableEq, Repr

def RulesFault.message : RulesFault → String
  | .unreadable => "cannot read rules file"
  | .unparsable => "failed to parse rules"
  | .notAList found => "rules must be a list, got " ++ found
  | .unnamed position => "rule " ++ toString position ++ " has no name"
  | .specNotAMap name => "rule " ++ name ++ " has a spec that is not a map"

/-- Why a piece of work stops. The failures down to `refused` are those of a reconcile and are
reported; the others escape whoever expects only those. -/
inductive Failure where
  /-- An object that the reconcile depends on does not exist. -/
  | notFound (what : String)
  /-- The object changed since it was read; the reconcile has to start over. -/
  | conflict (message : String)
  /-- Any other refusal of the API. -/
  | clusterApi (what : String) (fault : ApiFault)
  | malformedRules (fault : RulesFault)
  /-- The OperandConfig of this key has no list of services. -/
  | malformedConfig (key : String)
  /-- A resource override does not say what it overrides; `raw` is what it says. -/
  | incompleteIdentity (raw : Identity)
  | refused (message : String)
  /-- A refusal of the API that nobody has put into the terms of a reconcile. -/
  | api (fault : ApiFault)
  /-- A value has a shape that the work at hand cannot use. -/
  | wrongShape
  /-- A text has the form of a value but none that exists. -/
  | noSuchValue
  /-- A number is asked of an empty text. -/
  | emptyNumber
  /-- A number is too large for what it is used for. -/
  | numberTooLarge
  /-- A document goes too deep, or around in a circle. -/
  | tooDeep
  /-- Bytes are no text. -/
  | undecodable
  | unexpected (message : String)
  deriving DecidableEq, Repr

namespace Failure

/-- The failures that a reconcile reports. -/
def ofReconcile : Failure → Bool
  | .notFound _ | .conflict _ | .clusterApi _ _ | .malformedRules _ | .malformedConfig _
  | .incompleteIdentity _ | .refused _ => true
  | _ => false

def identityPath (raw : Identity) : String :=
  raw.apiVersion ++ "/" ++ raw.kind ++ "/" ++ raw.name ++ "/" ++ raw.space

def message : Failure → String
  | .notFound what => what ++ " not found"
  | .conflict message => message
  | .clusterApi what fault => what ++ ": " ++ fault.summary
  | .malformedRules fault => fault.message
  | .malformedConfig key => "OperandConfig " ++ key ++ " has no spec.services list"
  | .incompleteIdentity raw => identityPath raw ++ ": apiVersion, kind or name is not set"
  | .refused message => message
  | .api fault => fault.message
  | .unexpected message => message
  | .wrongShape | .noSuchValue | .emptyNumber | .numberTooLarge | .tooDeep | .undecodable => ""

/-- A refused call in the terms of a reconcile: 404 is a missing object, 409 a conflict. -/
def ofApi (what : String) (fault : ApiFault) : Failure :=
  if fault.status = some 404 then .notFound what
  else if fault.status = some 409 then .conflict (what ++ " was modified concurrently")
  else .clusterApi what fault

end Failure

end TenantSizing
