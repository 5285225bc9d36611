import TenantSizing.Controller

namespace TenantSizing

/-- What a watch stream does next, as a script gives it. -/
inductive Delivery where
  | event (event : Tree)
  /-- The controller is told to stop just before the event arrives. -/
  | stopThen (event : Tree)
  /-- The API ends the stream. -/
  | refuse (fault : ApiFault)
  /-- Something else ends the stream. -/
  | collapse (message : String)
  deriving DecidableEq, Repr

abbrev Batch := List Delivery

namespace Watch

open Job

variable {σ : Type}

def openStream (space : String) (timeout : Int) : Job Unit :=
  act (.watch space timeout)

/-- Delivers a batch. The consumer may leave the stream early. The last stream tells the controller
to stop when it ends, however it does. -/
def deliver (last : Bool) (consume : σ → Tree → Job (Option σ)) (state : σ) : Batch → Job σ
  | [] => do
    if last then stop
    pure state
  | .event event :: rest => do
    match ← consume state event with
    | some next => deliver last consume next rest
    | none => pure state
  | .stopThen event :: rest => do
    stop
    match ← consume state event with
    | some next => deliver last consume next rest
    | none => pure state
  | .refuse fault :: _ => do
    if last then stop
    note (.streamFailed fault)
    fail (.api fault)
  | .collapse message :: _ => do
    if last then stop
    fail (.unexpected message)

def collect (space : String) (timeout : Int) (script : List Batch) : Job (List Tree) := do
  openStream space timeout
  let events ← deliver (script.length ≤ 1) (fun events event => pure (some (event :: events))) []
    (script.head?.getD [])
  pure events.reverse

/-- The pause after a stream that failed, in seconds. -/
def failurePause : Nat := 5

/-- How long a stream stays open, in seconds. -/
def streamTimeout : Int := 300

/-- Passes events on until the controller is told to stop. -/
def consumeWith (handle : Tree → Job Unit) (_ : Unit) (event : Tree) : Job (Option Unit) := do
  if ← isStopped then pure none
  else
    handle event
    pure (some ())

/-- Opens one stream and follows it to its end. A failure is reported and followed by a pause. -/
def followStream (space : String) (handle : Tree → Job Unit) (last : Bool) (batch : Batch) :
    Job Unit := do
  let followed := do
    openStream space streamTimeout
    deliver last (consumeWith handle) () batch
  match ← outcome followed with
  | .ok _ => pure ()
  | .error failure =>
    match failure with
    | .api fault => note (.watchFailed fault)
    | _ => note .watchBroken
    act (.sleep failurePause)

/-- Opens one stream after the other until the controller is told to stop. Behind the script there
is one empty stream. -/
def followAll (space : String) (handle : Tree → Job Unit) : List Batch → Job Unit
  | [] => do
    if !(← isStopped) then followStream space handle true []
  | batch :: rest => do
    if !(← isStopped) then
      followStream space handle rest.isEmpty batch
      followAll space handle rest

end Watch

namespace Controller

open Job

variable (c : Controller)

/-- An event is a map with a type and an object. -/
def handleDelivered (event : Tree) : Job Unit :=
  match event with
  | .map entries =>
    match entries.lookup "type", entries.lookup "object" with
    | some type, some object => c.handle type object
    | _, _ => fail .wrongShape
  | _ => fail .wrongShape

def watch (script : List Batch) : Job Unit := do
  note .watchStarted
  Watch.followAll c.watched c.handleDelivered script

/-- The time between two resyncs, in seconds. -/
def resyncInterval : Nat := 300

/-- Waits and resyncs in turn; the wait behind the last tick is ended by a stop. -/
def resyncTicks : Nat → Job Unit
  | 0 => act (.wait resyncInterval)
  | ticks + 1 => do
    act (.wait resyncInterval)
    c.resync
    resyncTicks ticks

def periodicResync (ticks : Nat) : Job Unit := do
  note (.resyncStarted resyncInterval)
  c.resyncTicks ticks

inductive Ending where
  | interrupt
  | stop
  deriving DecidableEq, Repr

/-- Sleeps second by second until the run is ended during the last one. -/
def idle (ending : Ending) : Nat → Job Unit
  | 0 => do
    act (.sleep 1)
    match ending with
    | .interrupt =>
      note .interrupted
      modify fun p => { p with stopped := true }
    | .stop => stop
  | more + 1 => do
    act (.sleep 1)
    idle ending more

/-- Starts both activities and keeps going until the run is ended in the given second. -/
def run (seconds : Nat) (ending : Ending) : Job Bool := do
  note .rule
  note .controllerStarting
  note .rule
  note (.servesNamespace c.reconciler.space)
  note (.watches c.watched)
  note (.dryRun c.reconciler.dryRun)
  act (.thread "watch_common_services" "commonservice-watcher")
  act (.thread "periodic_resync" "periodic-resync")
  note .running
  if !(← isStopped) then idle ending (seconds - 1)
  isStopped

end Controller

end TenantSizing
