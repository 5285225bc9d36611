import TenantSizing.Access
import TenantSizing.Reconcile.Aggregate

namespace TenantSizing

structure Reconciler where
  /-- The namespace of the OperandConfig. -/
  space : String
  configName : String := "common-service"
  /-- The rules document. -/
  rules : String := builtinRules
  /-- Size templates other than the built-in ones. -/
  templates : Option Tree := none
  /-- Nothing is written. -/
  dryRun : Bool := false

namespace Reconciler

open Job

variable (r : Reconciler)

def key : String :=
  Access.configKey r.space r.configName

def scope (rules : RuleSet) : Scope :=
  { rules, space := r.space, config := r.key }

/-- Reads the OperandConfig and its services, which have to be a list. -/
def fetch : Job (Tree × List Tree) := do
  let config ← Access.getConfig r.space r.configName
  match config.follow ["spec", "services"] with
  | .list services => do
    let copies ← ofReport (.ofExcept (services.mapM Tree.copy))
    pure (config, copies)
  | _ => fail (.malformedConfig r.key)

def withServices (config : Tree) (services : List Tree) : Tree :=
  config.updateMap ["spec"] fun spec => Keyed.insert spec "services" (.list services)

/-- Writes the services back into the object, unless nothing is to be written. -/
def write (config : Tree) (services : List Tree) (unchanged : Bool) : Job Unit := do
  if r.dryRun then note (.wouldUpdate r.key unchanged)
  else
    let _ ← Access.replaceConfig (withServices config services)
    if !unchanged then note (.updated r.key)

/-- The tenants that count, in the order in which they are folded. -/
def liveTenants : Job (List Tree) := do
  let tenants ← Access.listTenants
  let items ← ofReport (.ofExcept tenants.elements?)
  pure (Tenant.live items)

def demand (rules : RuleSet) : Job Demand := do
  let tenants ← liveTenants
  ofReport (readDemand (r.scope rules) r.templates tenants)

def aggregate (services : List Tree) (rules : RuleSet) (extreme : Extreme) : Job (List Tree) := do
  let demand ← r.demand rules
  ofReport (meetDemand (r.scope rules) extreme demand services)

def aggregateOn (services : Tree) (rules : RuleSet) (extreme : Extreme) : Job Tree := do
  let demand ← r.demand rules
  ofReport (meetDemandOn (r.scope rules) extreme demand services)

def loadRules : Job RuleSet :=
  ofReport (.ofExcept (RuleSet.read r.rules))

def aggregateNamed (services : Tree) (extreme : String) : Job Tree := do
  let rules ← r.loadRules
  match Extreme.read? extreme with
  | some extreme => r.aggregateOn services rules extreme
  | none => fail .noSuchValue

/-- One reconcile: `prepare` works on the services that were read, then they are brought to the
level of all tenants and written back. Tells whether they are the same as before. A conflict on the
write means that another reconcile got there first. -/
def reconcile (started : Notice) (prepare : Scope → List Tree → Report (List Tree))
    (extreme : Extreme) : Job Bool := do
  let (config, held) ← r.fetch
  let rules ← r.loadRules
  note started
  let services ← ofReport (prepare (r.scope rules) held)
  let services ← r.aggregate services rules extreme
  let unchanged ← ofReport (.ofExcept ((Tree.list held).compare (.list services)))
  r.write config services unchanged
  pure unchanged

/-- Applies the services of the tenant that triggered this, then grows the OperandConfig to what
all live tenants need. -/
def update (configs : List Tree) (modes : Tree) : Job Bool :=
  r.reconcile (.applying configs.length r.key)
    (fun scope services => applyConfigs scope modes services configs) .max

def shrink : Job Bool :=
  r.reconcile (.shrinking r.key) (fun _ services => pure services) .min

def updateFrom (object : Tree) : Job Bool := do
  let contribution ← ofReport (Contribution.read r.templates object)
  r.update contribution.services (Mode.toTree contribution.modes)

end Reconciler

end TenantSizing
