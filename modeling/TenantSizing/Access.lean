import TenantSizing.Job

namespace TenantSizing

namespace Access

open Job

/-- Live tenants are those without the label of a clone. -/
def liveSelector : String :=
  "!" ++ Tenant.cloneLabel

def configKey (space name : String) : String :=
  space ++ "/" ++ name

def getConfig (space name : String) : Job Tree := do
  let key := configKey space name
  let refuse (fault : ApiFault) : Job Tree := do
    note (.getFailed key fault)
    fail (.ofApi ("OperandConfig " ++ key) fault)
  match ← request (.get space name) with
  | some fault => refuse fault
  | none =>
    match (← get).cluster.config with
    | some config => pure config
    | none => refuse { status := some 404, reason := some "Not Found" }

/-- The metadata of an object, empty if it has none. -/
def metadata (object : Tree) : Except Failure Entries :=
  match object with
  | .map entries =>
    match entries.lookup "metadata" with
    | none => .ok []
    | some (.map metadata) => .ok metadata
    | some _ => .error .wrongShape
  | _ => .error .wrongShape

def metadataField (metadata : Entries) (field : String) : Tree :=
  (metadata.lookup field).getD (.text "")

/-- Writes the OperandConfig. The version in its metadata goes along, so the write is refused if
the object changed since it was read. -/
def replaceConfig (object : Tree) : Job Tree := do
  let fields ← ofReport (.ofExcept (metadata object))
  let space := metadataField fields "namespace"
  let name := metadataField fields "name"
  let key := configKey space.shown name.shown
  match ← request (.replace space name) with
  | some fault =>
    note (.replaceFailed key fault)
    fail (.ofApi ("OperandConfig " ++ key) fault)
  | none =>
    modify fun p => { p with cluster := { p.cluster with config := some object } }
    pure object

def listTenants (selector : String := liveSelector) : Job Tree := do
  match ← request (.list selector) with
  | some fault =>
    note (.listFailed fault)
    fail (.ofApi "CommonService list" fault)
  | none =>
    let tenants := (← get).cluster.tenants
    pure (if tenants.isNull then .list [] else tenants)

def setPhase (space name : Tree) (phase : String) : Job Bool := do
  match ← request (.patch space name phase) with
  | some fault =>
    note (.patchFailed (configKey space.shown name.shown) fault)
    pure false
  | none => pure true

end Access

end TenantSizing
