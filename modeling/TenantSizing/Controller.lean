import TenantSizing.Reconcile

namespace TenantSizing

structure Controller where
  reconciler : Reconciler
  /-- The namespace whose CommonServices are watched; the empty one stands for all. -/
  watched : String := ""

namespace Controller

open Job

def maxAttempts : Nat := 5

/-- The pause between two attempts, in seconds. -/
def retryPause : Nat := 1

/-- Runs attempt number `attempt` of a reconcile, with `left` more attempts if it conflicts. -/
def attemptFrom (task : String) (work : Nat → Job Bool) (attempt : Nat) : Nat → Job Bool
  | 0 => tryCatch (work attempt) fun failure => do
    match failure with
    | .conflict _ => note (.givingUp task attempt)
    | _ => pure ()
    fail failure
  | left + 1 => tryCatch (work attempt) fun failure => do
    match failure with
    | .conflict message =>
      note (.retrying task message attempt maxAttempts)
      act (.sleep retryPause)
      attemptFrom task work (attempt + 1) left
    | _ => fail failure

/-- Runs a reconcile, starting over from a fresh read on every conflict. -/
def withRetry (task : String) (work : Job Bool) : Job Bool :=
  attemptFrom task (fun _ => work) 1 (maxAttempts - 1)

/-- The attempt of that number by a script, which says how each attempt goes. -/
def scriptedAttempt (script : List (Except Failure Bool)) (attempt : Nat) : Job Bool := do
  act .attempt
  match script[attempt - 1]? with
  | some outcome => ofReport (.ofExcept outcome)
  | none => fail (.unexpected "the script has ended")

def retryScripted (task : String) (script : List (Except Failure Bool)) : Job Bool :=
  attemptFrom task (scriptedAttempt script) 1 (maxAttempts - 1)

variable (c : Controller)

/-- Records a phase in a tenant's status, unless it is there already. -/
def setPhase (object : Tree) (phase : String) : Job Unit := do
  if c.reconciler.dryRun || object.follow ["status", "phase"] = .text phase then pure ()
  else
    let fields ← ofReport (.ofExcept (Access.metadata object))
    let _ ← Access.setPhase (Access.metadataField fields "namespace")
      (Access.metadataField fields "name") phase

def eventKey (fields : Entries) : String :=
  Access.configKey (Access.metadataField fields "namespace").shown
    (Access.metadataField fields "name").shown

/-- A tenant went away: the OperandConfig shrinks. -/
def handleRemoval (key : String) : Job Unit := do
  note (.tenantRemoved key)
  match ← outcome (withRetry ("Delete " ++ key) c.reconciler.shrink) with
  | .ok _ => pure ()
  | .error failure =>
    if failure.ofReconcile then note (.shrinkFailed key failure.message) else fail failure

/-- A tenant is new or changed: its request is applied, and its status tells how that went. -/
def handleRequest (event key : String) (object : Tree) : Job Unit := do
  note (.tenantSeen event key)
  let contribution ← ofReport (Contribution.read none object)
  let work := c.reconciler.update contribution.services (Mode.toTree contribution.modes)
  match ← outcome (withRetry ("Update " ++ key) work) with
  | .ok unchanged =>
    if !unchanged then note (.configChanged key)
    c.setPhase object "Succeeded"
  | .error failure =>
    if failure.ofReconcile then
      note (.tenantFailed key failure.message)
      c.setPhase object "Failed"
    else fail failure

/-- Handles one event. Clones are ignored, and so are events of other types than these three. -/
def handle (event object : Tree) : Job Unit := do
  let fields ← ofReport (.ofExcept (Access.metadata object))
  let key := eventKey fields
  if Tenant.isClone object then pure ()
  else if event = .text "DELETED" || Tenant.isBeingDeleted object then c.handleRemoval key
  else if event = .text "ADDED" || event = .text "MODIFIED" then
    c.handleRequest event.string key object
  else pure ()

/-- Aggregates all live tenants into the OperandConfig. -/
def resync : Job Unit := do
  match ← outcome (withRetry "Resync" (c.reconciler.update [] (.map []))) with
  | .ok _ => pure ()
  | .error failure =>
    if failure.ofReconcile then note (.resyncFailed failure.message) else fail failure

end Controller

end TenantSizing
