import TenantSizing.Proofs.Footprints
import TenantSizing.Proofs.Outcomes

namespace TenantSizing

open Job

/-- Nothing but reads has been called, and the stored object is as before. -/
structure Previews (p q : Progress) : Prop where
  config : q.cluster.config = p.cluster.config
  calls : Adds (fun method => method = .get ∨ method = .list) p q

theorem frame_previews : Frame Previews where
  notices _ _ := ⟨rfl, .of_eq rfl⟩
  trans h hs := ⟨hs.config.trans h.config, (frame_adds _).trans h.calls hs.calls⟩

/-- A reconcile of a dry run, whatever it prepares. -/
theorem previews_reconcile {r : Reconciler} (dry : r.dryRun = true) (started : Notice)
    (prepare : Scope → List Tree → Report (List Tree)) (x : Extreme) :
    Within Previews (r.reconcile started prepare x) := by
  refine frame_previews.reconcile (fun p => ⟨rfl, adds_request (.inl rfl) p⟩)
    (fun p => ⟨rfl, adds_request (.inr rfl) p⟩) (fun config services unchanged => ?_)
    started prepare x
  unfold Reconciler.write
  rw [if_pos dry]
  exact frame_previews.note _

theorem previews_meet {c : Controller} (dry : c.reconciler.dryRun = true) {occurrence : Occurrence}
    (h : ∀ object, occurrence ≠ .config object) : Within Previews (c.meet occurrence) := by
  refine frame_previews.meet (fun p => ⟨rfl, adds_pause p⟩)
    (fun configs modes => previews_reconcile dry _ _ _) (previews_reconcile dry _ _ _)
    (fun wet => ?_) (fun p => ⟨rfl, .of_eq rfl⟩)
    (fun change kept p => ⟨kept p.cluster, .of_eq rfl⟩) h
  rw [dry] at wet
  cases wet

/-- The same objects, where the reads are answered in the same way and the write is accepted. -/
structure Rehearses (cluster other : Cluster) : Prop where
  config : other.config = cluster.config
  tenants : other.tenants = cluster.tenants
  get : other.schedule.answer .get = cluster.schedule.answer .get
  list : other.schedule.answer .list = cluster.schedule.answer .list
  replace : other.schedule.answer .replace = none

namespace Reconciler

variable {r : Reconciler} {prepare : Scope → List Tree → Report (List Tree)} {x : Extreme}
  {cluster other : Cluster}

/-- Up to the write a reconcile depends on what it reads, and on how its first two calls are
answered. -/
theorem planned_congr (config : other.config = cluster.config)
    (tenants : other.tenants = cluster.tenants)
    (get : other.schedule.answer .get = cluster.schedule.answer .get)
    (list : other.schedule.answer .list = cluster.schedule.answer .list) :
    r.planned prepare x other = r.planned prepare x cluster := by
  have found : r.found other = r.found cluster := by
    rw [found, found, Cluster.refusal_get, Cluster.refusal_get, get, config]
  have requested : ∀ rules, r.requested rules other = r.requested rules cluster := fun rules => by
    rw [requested, requested, Cluster.refusal_list, Cluster.refusal_list, list, tenants]
  simp only [planned, prepared, found, requested]

/-- Where its write is accepted, a reconcile ends as the one that writes nothing. -/
theorem ending_wet (prepare : Scope → List Tree → Report (List Tree)) (x : Extreme)
    (dry : r.dryRun = true) (h : Rehearses cluster other)
    (named : ∀ config, cluster.config = some config →
      ∃ fields, Access.metadata config = .ok fields) :
    ({ r with dryRun := false } : Reconciler).ending prepare x other =
      r.ending prepare x cluster := by
  have planned : ({ r with dryRun := false } : Reconciler).planned prepare x other =
      r.planned prepare x cluster :=
    planned_congr h.config h.tenants h.get h.list
  unfold ending
  rw [planned]
  cases hp : r.planned prepare x cluster with
  | error failure => rfl
  | ok plan =>
    obtain ⟨config, services, unchanged⟩ := plan
    obtain ⟨stored, held, listed⟩ := stored_of_planned hp
    obtain ⟨fields, hm⟩ := named config stored
    have accepted :
        ({ r with dryRun := false } : Reconciler).written config services other = .ok () := by
      rw [written, if_neg (by simp), metadata_withServices listed, hm]
      simp [Except.bind, h.replace]
    have spared : r.written config services cluster = .ok () := by
      rw [written, if_pos dry]
    show (({ r with dryRun := false } : Reconciler).written config services other).bind _ =
      (r.written config services cluster).bind _
    rw [accepted, spared]

end Reconciler

/-- A dry run is a faithful preview. However long it goes on around a controller that runs dry,
nothing but reads is called, and the stored object stays unless others replace it. From every store
whose metadata can be read, an update and a shrinking end just as they would if they wrote and the
write was accepted. -/
theorem dry_runs_preview {c : Controller} (dry : c.reconciler.dryRun = true) :
    (∀ history p, (∀ object, .config object ∉ history) → Previews p (c.after history p)) ∧
      ∀ p q : Progress, Rehearses p.cluster q.cluster →
        (∀ config, p.cluster.config = some config →
          ∃ fields, Access.metadata config = .ok fields) →
        (∀ configs modes, (run (c.reconciler.update configs modes) p).1 =
          (run (({ c.reconciler with dryRun := false } : Reconciler).update configs modes) q).1) ∧
        (run c.reconciler.shrink p).1 =
          (run ({ c.reconciler with dryRun := false } : Reconciler).shrink q).1 := by
  refine ⟨fun history p h => ?_, fun p q rehearses named => ⟨fun configs modes => ?_, ?_⟩⟩
  · induction history generalizing p with
    | nil => exact frame_previews.notices p p.notices
    | cons first rest ih =>
      rw [Controller.after_cons]
      have step : Within Previews (c.meet first) :=
        previews_meet dry fun object he => h object (by simp [he])
      exact frame_previews.trans (step p) (ih _ fun object hm => h object (by simp [hm]))
  · rw [Reconciler.update, Reconciler.update, Reconciler.run_reconcile, Reconciler.run_reconcile]
    exact (Reconciler.ending_wet _ .max dry rehearses named).symm
  · rw [Reconciler.shrink, Reconciler.shrink, Reconciler.run_reconcile, Reconciler.run_reconcile]
    exact (Reconciler.ending_wet _ .min dry rehearses named).symm

/-- A controller that runs dry, and what goes on around it. -/
def Sample.dryController : Controller where
  reconciler := { reconciler with dryRun := true }

def Sample.goings : List Occurrence :=
  let asking := tenant "a" [("services", .list [service [("replicas", .int 3)]])]
  [.tenants (.list [asking]), .answers .get [some { status := some 409, reason := none }],
    .event (.text "ADDED") asking, .resync, .tenants (.list []), .shrink]

theorem dry_runs_preview_goings :
    Previews (Sample.start [("replicas", .int 2)] [])
        (Sample.dryController.after Sample.goings (Sample.start [("replicas", .int 2)] [])) ∧
      (run Sample.dryController.reconciler.shrink (Sample.start [("replicas", .int 2)] [])).1 =
        (run Sample.reconciler.shrink (Sample.start [("replicas", .int 2)] [])).1 := by
  have dry : Sample.dryController.reconciler.dryRun = true := rfl
  obtain ⟨previews, rehearsal⟩ := dry_runs_preview dry
  refine ⟨previews _ _ (by simp [Sample.goings]), ?_⟩
  refine (rehearsal _ (Sample.start [("replicas", .int 2)] []) ⟨rfl, rfl, rfl, rfl, rfl⟩ ?_).2
  intro config stored
  cases stored
  exact ⟨_, rfl⟩

end TenantSizing
