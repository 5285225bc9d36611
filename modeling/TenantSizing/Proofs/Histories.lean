import TenantSizing.Proofs.Footprints
import TenantSizing.Proofs.Structure

namespace TenantSizing

open Job

namespace Job

variable {α : Type}

/-- However the job ends, it leaves the structure of the stored object. -/
def Preserves (space : String) (job : Job α) : Prop :=
  ∀ p, KeepsStored space p.cluster.config (run job p).2.cluster.config

theorem frame_keepsStored (space : String) :
    Frame fun p q => KeepsStored space p.cluster.config q.cluster.config where
  notices _ _ := .refl _
  trans := .trans

end Job

namespace Controller

variable {c : Controller}

/-- One occurrence: only others replace or remove the stored object as a whole. -/
theorem preserves_meet {occurrence : Occurrence} (h : ∀ object, occurrence ≠ .config object) :
    Preserves c.reconciler.space (c.meet occurrence) := by
  refine (frame_keepsStored c.reconciler.space).meet (fun _ => .refl _)
    c.reconciler.keepsStored_update c.reconciler.keepsStored_shrink
    (fun _ _ _ _ _ => .refl _) (fun _ => .refl _) (fun change kept p => ?_) h
  show KeepsStored _ p.cluster.config (change p.cluster).config
  rw [kept]
  exact .refl _

/-- Whatever happens around a controller, at every point the stored OperandConfig has the structure
that it had in the beginning, unless others replace or remove it. Tenants neither add nor remove nor
rename nor reorder operands, kinds or embedded resources. -/
theorem histories_keep_structure (c : Controller) {history : List Occurrence}
    (h : ∀ object, .config object ∉ history) (p : Progress) :
    KeepsStored c.reconciler.space p.cluster.config (c.after history p).cluster.config := by
  induction history generalizing p with
  | nil => exact .refl _
  | cons first rest ih =>
    rw [after_cons]
    have step : Preserves c.reconciler.space (c.meet first) :=
      preserves_meet fun object he => h object (by simp [he])
    exact (step p).trans (ih (fun object hm => h object (by simp [hm])) _)

end Controller

def Sample.embedded (fields : Entries) : Tree :=
  .map ([("apiVersion", .text "v1"), ("kind", .text "ConfigMap"), ("name", .text "settings")] ++
    fields)

/-- An OperandConfig with two embedded resources, of which the second does not say what it is. -/
def Sample.furnished : Tree :=
  .map [("metadata", .map [("name", .text "common-service"), ("namespace", .text "ns")]),
    ("spec", .map [("services", .list [.map [("name", .text "db"),
      ("spec", .map [("cluster", .map [("replicas", .int 2)])]),
      ("resources", .list [embedded [], .map [("kind", .text "Secret")]])]])])]

/-- A config that names the namespace of a resource, a tenant that comes and goes, and a write that
is refused. -/
def Sample.turbulence : List Occurrence :=
  let asking := tenant "a" [("services", .list [service [("replicas", .int 3)]])]
  let settled := [("namespace", .text "ns"), ("data", .map [("size", .int 1)])]
  [.update [.map [("name", .text "db"), ("resources", .list [embedded settled])]] (.map []),
    .answers .replace [some { status := some 409, reason := some "Conflict" }],
    .tenants (.list [asking]), .event (.text "ADDED") asking, .tenants (.list []), .shrink, .resync]

theorem histories_keep_structure_turbulent :
    KeepsStored "ns" (some Sample.furnished)
      (Controller.after { reconciler := Sample.reconciler } Sample.turbulence
        { cluster := { config := some Sample.furnished, tenants := .list [] } }).cluster.config :=
  Controller.histories_keep_structure { reconciler := Sample.reconciler }
    (by simp [Sample.turbulence])
    { cluster := { config := some Sample.furnished, tenants := .list [] } }

end TenantSizing
