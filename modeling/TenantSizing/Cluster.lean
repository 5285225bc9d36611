import TenantSizing.Failure
import TenantSizing.Tenant

namespace TenantSizing

inductive Method where
  | get
  | replace
  | list
  | patch
  deriving DecidableEq, Repr

def Method.word : Method → String
  | .get => "get"
  | .replace => "replace"
  | .list => "list"
  | .patch => "patch"

/-- A call of the API. Namespaces and names of written objects are whatever the objects say. -/
inductive Call where
  | get (space name : String)
  | replace (space name : Tree)
  | list (selector : String)
  | patch (space name : Tree) (phase : String)
  deriving DecidableEq, Repr

namespace Call

def method : Call → Method
  | .get _ _ => .get
  | .replace _ _ => .replace
  | .list _ => .list
  | .patch _ _ _ => .patch

def group : String × Tree := ("group", .text "operator.ibm.com")

def configResource : Entries :=
  [group, ("version", .text "v1alpha1"), ("plural", .text "operandconfigs")]

def tenantResource : Entries :=
  [group, ("version", .text "v3"), ("plural", .text "commonservices")]

def arguments : Call → Entries
  | .get space name => configResource ++ [("namespace", .text space), ("name", .text name)]
  | .replace space name => configResource ++ [("namespace", space), ("name", name)]
  | .list selector => tenantResource ++ [("label_selector", .text selector)]
  | .patch space name phase =>
    tenantResource ++ [("namespace", space), ("name", name),
      ("body", .map [("status", .map [("phase", .text phase)])])]

end Call

inductive Effect where
  | call (call : Call)
  | sleep (seconds : Nat)
  /-- A wait that a stop ends early. -/
  | wait (seconds : Nat)
  /-- A watch stream is opened, for one namespace or, if that is empty, for all. -/
  | watch (space : String) (timeout : Int)
  | attempt
  | thread (activity name : String)
  deriving DecidableEq, Repr

namespace Effect

def watchedListing (space : String) : String :=
  if space = "" then "list_cluster_custom_object" else "list_namespaced_custom_object"

def watchArguments (space : String) (timeout : Int) : Entries :=
  Call.tenantResource ++ [("timeout_seconds", .int timeout)] ++
    if space = "" then [] else [("namespace", .text space)]

end Effect

/-- The answers that are scheduled for calls to come, one queue for each method. A call without a
scheduled answer is not refused. -/
structure Schedule where
  get : List (Option ApiFault) := []
  replace : List (Option ApiFault) := []
  list : List (Option ApiFault) := []
  patch : List (Option ApiFault) := []
  deriving DecidableEq, Repr

namespace Schedule

def queue (schedule : Schedule) : Method → List (Option ApiFault)
  | .get => schedule.get
  | .replace => schedule.replace
  | .list => schedule.list
  | .patch => schedule.patch

def withQueue (schedule : Schedule) (method : Method) (queue : List (Option ApiFault)) : Schedule :=
  match method with
  | .get => { schedule with get := queue }
  | .replace => { schedule with replace := queue }
  | .list => { schedule with list := queue }
  | .patch => { schedule with patch := queue }

def answer (schedule : Schedule) (method : Method) : Option ApiFault :=
  (schedule.queue method).head?.join

def after (schedule : Schedule) (method : Method) : Schedule :=
  schedule.withQueue method (schedule.queue method).tail

end Schedule

structure Cluster where
  /-- The stored OperandConfig. -/
  config : Option Tree
  /-- The items that a listing of tenants gives. A null stands for an answer without items. -/
  tenants : Tree
  schedule : Schedule := {}

end TenantSizing
