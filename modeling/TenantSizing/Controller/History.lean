import TenantSizing.Controller

namespace TenantSizing

inductive Occurrence where
  | event (type object : Tree)
  | resync
  /-- The service configs of one tenant are applied. -/
  | update (configs : List Tree) (modes : Tree)
  | shrink
  | stop
  /-- Others change the tenants. -/
  | tenants (items : Tree)
  /-- Others replace the OperandConfig or remove it. -/
  | config (object : Option Tree)
  /-- The API takes up other answers for the calls of a method. -/
  | answers (method : Method) (queue : List (Option ApiFault))
  deriving DecidableEq, Repr

namespace Controller

variable (c : Controller)

def changeCluster (change : Cluster → Cluster) : Job Unit :=
  modify fun p => { p with cluster := change p.cluster }

/-- Work that tells nothing. -/
def silently (work : Job Unit) : Job (Option Bool) := do
  work
  pure none

/-- Lets one thing happen. A reconcile tells whether the services are the same as before. -/
def meet : Occurrence → Job (Option Bool)
  | .event type object => silently (c.handle type object)
  | .resync => silently c.resync
  | .update configs modes => some <$> c.reconciler.update configs modes
  | .shrink => some <$> c.reconciler.shrink
  | .stop => silently Job.stop
  | .tenants items => silently (changeCluster fun cluster => { cluster with tenants := items })
  | .config object => silently (changeCluster fun cluster => { cluster with config := object })
  | .answers method queue =>
    silently (changeCluster fun cluster =>
      { cluster with schedule := cluster.schedule.withQueue method queue })

/-- The progress after a history. A failure ends its own occurrence only. -/
def after (history : List Occurrence) (progress : Progress) : Progress :=
  history.foldl (fun progress occurrence => (Job.run (c.meet occurrence) progress).2) progress

theorem after_cons (first : Occurrence) (rest : List Occurrence) (progress : Progress) :
    c.after (first :: rest) progress =
      c.after rest (Job.run (c.meet first) progress).2 := rfl

end Controller

end TenantSizing
