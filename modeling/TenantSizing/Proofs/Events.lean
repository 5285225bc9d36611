import TenantSizing.Proofs.Footprints
import TenantSizing.Proofs.Retries
import TenantSizing.Proofs.Totality

namespace TenantSizing

open Job Controller

/-- One reconcile, with its retries, is all that has been done outside in between, and this is how
it ended. -/
def Reconciles (job : Job Bool) (p : Progress) (ended : Except Failure Bool) (q : Progress) :
    Prop :=
  ∃ start attempts, start.cluster = p.cluster ∧ start.effects = p.effects ∧
    Attempts job start attempts ended q ∧ Retried maxAttempts attempts

/-- The failure is none that a reconcile reports, and it is no refusal by the API either. -/
def Escapes (failure : Failure) : Prop :=
  failure.ofReconcile = false ∧ ∀ fault, failure ≠ .api fault

namespace Attempts

variable {job : Job Bool} {p mid q : Progress} {attempts : List Attempt}
  {ended : Except Failure Bool}

/-- Notices at the end do not count. -/
theorem congr_finish (h : Attempts job p attempts ended mid) (cluster : q.cluster = mid.cluster)
    (effects : q.effects = mid.effects) : Attempts job p attempts ended q := by
  induction h with
  | last ran hc he => exact .last ran (cluster.trans hc) (effects.trans he)
  | again ran hc he _ ih => exact .again ran hc he (ih cluster effects)

theorem adds {allowed : Method → Prop} (h : Attempts job p attempts ended q)
    (hw : Within (Adds allowed) job) : Adds allowed p q := by
  have frame := frame_adds allowed
  induction h with
  | @last p mid q ended ran _ effects =>
    have own := hw p
    rw [ran] at own
    exact frame.trans own (.of_eq effects)
  | @again p mid next q message attempts ended ran _ effects rest ih =>
    have own := hw p
    rw [ran] at own
    exact frame.trans own (frame.trans ⟨_, effects, by simp⟩ ih)

end Attempts

namespace Reconciles

variable {r : Reconciler} {job : Job Bool} {task : String} {p start mid q : Progress}
  {ended : Except Failure Bool}

/-- By notices alone the start of the reconcile may differ from `p`, and its end from `q`. -/
theorem of_run (h : Job.run (withRetry task job) start = (ended, mid))
    (hs : start.cluster = p.cluster) (he : start.effects = p.effects)
    (cluster : q.cluster = mid.cluster) (effects : q.effects = mid.effects) :
    Reconciles job p ended q := by
  obtain ⟨attempts, made, retried⟩ := run_withRetry h
  exact ⟨start, attempts, hs, he, made.congr_finish cluster effects, retried⟩

theorem adds {allowed : Method → Prop} (h : Reconciles job p ended q)
    (hw : Within (Adds allowed) job) : Adds allowed p q := by
  obtain ⟨start, attempts, _, effects, made, _⟩ := h
  obtain ⟨more, he, hm⟩ := made.adds hw
  exact ⟨more, by rw [he, effects], hm⟩

/-- A failure that reconciles do not report is no refusal. -/
theorem escapes {failure : Failure}
    (hj : job = r.shrink ∨ ∃ configs modes, job = r.update configs modes)
    (h : Reconciles job p (.error failure) q) (hf : failure.ofReconcile = false) :
    Escapes failure := by
  refine ⟨hf, fun fault he => ?_⟩
  subst he
  obtain ⟨started, prepare, x, sound, rfl⟩ := Reconciler.exists_sound hj
  obtain ⟨start, attempts, _, _, made, _⟩ := h
  obtain ⟨last, hl, ended, _⟩ := made.getLast
  have ran := made.ran last (List.mem_of_getLast? hl)
  rw [ended] at ran
  obtain ⟨calls, blames⟩ := Reconciler.blames_reconcile sound ran
  obtain ⟨_, _, _, _, _, he⟩ := blames.blamed rfl
  rw [he, Failure.ofReconcile_ofApi] at hf
  cases hf

end Reconciles

namespace Controller

variable {c : Controller} {p q : Progress} {outcome : Except Failure Unit}

/-- What a handler makes of the end of its reconcile. -/
def absorb : Except Failure Bool → Except Failure Unit
  | .ok _ => .ok ()
  | .error failure => if failure.ofReconcile then .ok () else .error failure

theorem absorb_error {ended : Except Failure Bool} {failure : Failure}
    (h : absorb ended = .error failure) : ended = .error failure ∧ failure.ofReconcile = false := by
  unfold absorb at h
  split at h
  · cases h
  · split at h
    · cases h
    · rename_i hf
      cases h
      exact ⟨rfl, by simpa using hf⟩

/-- The phase that tells how a request went; none if the work was stopped by what no reconcile
reports. -/
def phaseAfter : Except Failure Bool → Option String
  | .ok _ => some "Succeeded"
  | .error failure => if failure.ofReconcile then some "Failed" else none

/-- The patch that is due: none in a dry run, and none if the phase is there already. -/
def patchFor (c : Controller) (object : Tree) (fields : Entries) (phase : String) : List Call :=
  if c.reconciler.dryRun = true ∨ object.follow ["status", "phase"] = .text phase then []
  else [.patch (Access.metadataField fields "namespace") (Access.metadataField fields "name") phase]

/-- These calls have been made, and no object has changed. -/
structure Patched (calls : List Call) (p q : Progress) : Prop where
  effects : q.effects = p.effects ++ calls.map .call
  config : q.cluster.config = p.cluster.config
  tenants : q.cluster.tenants = p.cluster.tenants

theorem run_setPhase {object : Tree} {fields : Entries}
    (named : Access.metadata object = .ok fields)
    (phase : String) (p : Progress) :
    ∃ q, Job.run (c.setPhase object phase) p = (.ok (), q) ∧
      Patched (c.patchFor object fields phase) p q := by
  have either : (c.reconciler.dryRun || decide (object.follow ["status", "phase"] = .text phase)) =
      true ↔ c.reconciler.dryRun = true ∨ object.follow ["status", "phase"] = .text phase := by
    rw [Bool.or_eq_true, decide_eq_true_eq]
  unfold setPhase patchFor
  by_cases due : c.reconciler.dryRun = true ∨ object.follow ["status", "phase"] = .text phase
  · rw [if_pos (either.mpr due), if_pos due]
    exact ⟨p, rfl, by simp, rfl, rfl⟩
  · rw [if_neg (either.not.mpr due), if_neg due, run_bind, run_ofReport, named]
    unfold Access.setPhase
    simp only [Report.outcome_ofExcept]
    rw [bind_assoc, run_bind, run_request]
    dsimp only [Call.method]
    cases p.cluster.schedule.answer .patch with
    | some fault => exact ⟨_, rfl, by simp, rfl, rfl⟩
    | none => exact ⟨_, rfl, by simp, rfl, rfl⟩

/-- A reconcile with retries of which only the failures are looked at. -/
theorem run_reported {task : String} {job : Job Bool} {start : Progress} (report : Failure → Notice)
    (hs : start.cluster = p.cluster) (he : start.effects = p.effects)
    (h : Job.run (do
      match ← Job.outcome (withRetry task job) with
      | .ok _ => pure ()
      | .error failure => if failure.ofReconcile then note (report failure) else fail failure)
      start = (outcome, q)) :
    ∃ ended, outcome = absorb ended ∧ Reconciles job p ended q := by
  rw [run_bind_of_ok (run_outcome _ _)] at h
  rcases hw : Job.run (withRetry task job) start with ⟨ended, mid⟩
  rw [hw] at h
  refine ⟨ended, ?_⟩
  cases ended with
  | ok unchanged =>
    cases h
    exact ⟨rfl, .of_run hw hs he rfl rfl⟩
  | error failure =>
    dsimp only at h
    cases hf : failure.ofReconcile with
    | true =>
      rw [hf] at h
      cases h
      exact ⟨by simp [absorb, hf], .of_run hw hs he rfl rfl⟩
    | false =>
      rw [hf] at h
      cases h
      exact ⟨by simp [absorb, hf], .of_run hw hs he rfl rfl⟩

theorem run_handleRemoval {key : String} (h : Job.run (c.handleRemoval key) p = (outcome, q)) :
    ∃ ended, outcome = absorb ended ∧ Reconciles c.reconciler.shrink p ended q := by
  unfold handleRemoval at h
  rw [run_bind_of_ok (run_note _ _)] at h
  exact run_reported (fun failure => .shrinkFailed key failure.message) (by rfl) (by rfl) h

theorem run_resync (h : Job.run c.resync p = (outcome, q)) :
    ∃ ended, outcome = absorb ended ∧
      Reconciles (c.reconciler.update [] (.map [])) p ended q :=
  run_reported (fun failure => .resyncFailed failure.message) rfl rfl h

/-- Without a contribution nothing is done outside. -/
theorem run_handleRequest_unread {event key : String} {object : Tree} {failure : Failure}
    (hr : (Contribution.read none object).outcome = .error failure)
    (h : Job.run (c.handleRequest event key object) p = (outcome, q)) :
    outcome = .error failure ∧ q.cluster = p.cluster ∧ q.effects = p.effects := by
  unfold handleRequest at h
  rw [run_bind_of_ok (run_note _ _), run_bind, run_ofReport, hr] at h
  cases h
  exact ⟨rfl, rfl, rfl⟩

/-- Behind the reconcile of a request there is the patch that its end calls for. -/
theorem run_handleRequest {event key : String} {object : Tree} {fields : Entries}
    {contribution : Contribution} (named : Access.metadata object = .ok fields)
    (hr : (Contribution.read none object).outcome = .ok contribution)
    (h : Job.run (c.handleRequest event key object) p = (outcome, q)) :
    ∃ ended mid, outcome = absorb ended ∧
      Reconciles (c.reconciler.update contribution.services (Mode.toTree contribution.modes)) p
        ended mid ∧
      Patched ((phaseAfter ended).toList.flatMap (c.patchFor object fields)) mid q := by
  unfold handleRequest at h
  rw [run_bind_of_ok (run_note _ _), run_bind, run_ofReport, hr] at h
  dsimp only at h
  rw [run_bind_of_ok (run_outcome _ _)] at h
  generalize hs : ({ p with notices := _ } : Progress) = start at h
  have cluster : start.cluster = p.cluster := by rw [← hs]
  have effects : start.effects = p.effects := by rw [← hs]
  rcases hw : Job.run (withRetry ("Update " ++ key)
    (c.reconciler.update contribution.services (Mode.toTree contribution.modes))) start with
    ⟨ended, mid⟩
  rw [hw] at h
  -- Whatever is noted in between, each phase is patched over what the reconcile left.
  have patched : ∀ {phase : String} {late : Progress},
      Job.run (c.setPhase object phase) late = (outcome, q) → late.cluster = mid.cluster →
      late.effects = mid.effects →
      outcome = .ok () ∧ Patched (c.patchFor object fields phase) mid q := by
    intro phase late hp hc he
    obtain ⟨q', hq, added, config, tenants⟩ := run_setPhase (c := c) named phase late
    cases hp.symm.trans hq
    exact ⟨rfl, he ▸ added, by rw [config, hc], by rw [tenants, hc]⟩
  refine ⟨ended, mid, ?_⟩
  cases ended with
  | ok unchanged =>
    have done : outcome = .ok () ∧ Patched (c.patchFor object fields "Succeeded") mid q := by
      cases unchanged with
      | true => exact patched h rfl rfl
      | false =>
        dsimp only at h
        rw [Bool.not_false, if_pos rfl, run_bind_of_ok (run_note _ _)] at h
        exact patched h rfl rfl
    exact ⟨done.1, .of_run hw cluster effects rfl rfl, by simpa [phaseAfter] using done.2⟩
  | error failure =>
    dsimp only at h
    cases hf : failure.ofReconcile with
    | true =>
      rw [hf, if_pos rfl, run_bind_of_ok (run_note _ _)] at h
      obtain ⟨done, patch⟩ := patched h rfl rfl
      exact ⟨by simp [absorb, hf, done], .of_run hw cluster effects rfl rfl,
        by simpa [phaseAfter, hf] using patch⟩
    | false =>
      rw [hf] at h
      cases h
      exact ⟨by simp [absorb, hf], .of_run hw cluster effects rfl rfl,
        by simp [phaseAfter, hf], rfl, rfl⟩

end Controller

theorem isMap_of_metadata {object : Tree} {fields : Entries}
    (h : Access.metadata object = .ok fields) : object.isMap = true := by
  cases object with
  | map entries => rfl
  | list items => cases h
  | scalar value => cases h

/-- The three ways to handle an event of an object with metadata. -/
theorem run_handle {c : Controller} {event object : Tree} {fields : Entries} {p q : Progress}
    {outcome : Except Failure Unit} (named : Access.metadata object = .ok fields)
    (h : Job.run (c.handle event object) p = (outcome, q)) :
    (Tenant.isClone object = true ∨
        (event ≠ .text "DELETED" ∧ Tenant.isBeingDeleted object = false) ∧
          event ≠ .text "ADDED" ∧ event ≠ .text "MODIFIED") ∧ outcome = .ok () ∧ q = p ∨
      Tenant.isClone object = false ∧
        (event = .text "DELETED" ∨ Tenant.isBeingDeleted object = true) ∧
        Job.run (c.handleRemoval (eventKey fields)) p = (outcome, q) ∨
      Tenant.isClone object = false ∧
        (event ≠ .text "DELETED" ∧ Tenant.isBeingDeleted object = false) ∧
        (event = .text "ADDED" ∨ event = .text "MODIFIED") ∧
        Job.run (c.handleRequest event.string (eventKey fields) object) p = (outcome, q) := by
  unfold handle at h
  rw [run_bind, run_ofReport, named] at h
  simp only [Report.outcome_ofExcept, Report.notices_ofExcept, List.append_nil] at h
  split at h
  · rename_i clone
    cases h
    exact .inl ⟨.inl clone, rfl, rfl⟩
  · rename_i original
    have original : Tenant.isClone object = false := by simpa using original
    split at h
    · rename_i gone
      rw [Bool.or_eq_true, decide_eq_true_eq] at gone
      exact .inr (.inl ⟨original, gone, h⟩)
    · rename_i stays
      rw [Bool.or_eq_true, decide_eq_true_eq, not_or, Bool.not_eq_true] at stays
      split at h
      · rename_i due
        rw [Bool.or_eq_true, decide_eq_true_eq, decide_eq_true_eq] at due
        exact .inr (.inr ⟨original, stays, due, h⟩)
      · rename_i other
        rw [Bool.or_eq_true, decide_eq_true_eq, decide_eq_true_eq, not_or] at other
        cases h
        exact .inl ⟨.inr ⟨stays, other⟩, rfl, rfl⟩

/-- How an event of an object with these metadata is handled. -/
structure Dispatched (c : Controller) (event object : Tree) (fields : Entries) (p : Progress)
    (outcome : Except Failure Unit) (q : Progress) : Prop where
  /-- Clones come first, and other types only count while the object is being deleted. -/
  ignored : Tenant.isClone object = true ∨ Tenant.isBeingDeleted object = false ∧
      event ∉ [.text "ADDED", .text "MODIFIED", .text "DELETED"] → outcome = .ok () ∧ q = p
  /-- A removal shrinks, and no status is patched. -/
  removed : Tenant.isClone object = false →
    event = .text "DELETED" ∨ Tenant.isBeingDeleted object = true →
      ∃ ended, outcome = absorb ended ∧ Reconciles c.reconciler.shrink p ended q ∧
        Adds (· ≠ .patch) p q
  /-- A request is applied as the object states it. The patch, if one is due, is the last call. -/
  requested : Tenant.isClone object = false → Tenant.isBeingDeleted object = false →
    event = .text "ADDED" ∨ event = .text "MODIFIED" → (Contribution.outlineOf object).Copied →
      ∃ contribution ended mid, (Contribution.read none object).outcome = .ok contribution ∧
        outcome = absorb ended ∧
        Reconciles (c.reconciler.update contribution.services (Mode.toTree contribution.modes)) p
          ended mid ∧
        Adds (· ≠ .patch) p mid ∧
        Patched ((phaseAfter ended).toList.flatMap (c.patchFor object fields)) mid q
  /-- A request that is too deep to be copied stops the handler before any call. -/
  unread : Tenant.isClone object = false → Tenant.isBeingDeleted object = false →
    event = .text "ADDED" ∨ event = .text "MODIFIED" → ¬(Contribution.outlineOf object).Copied →
      outcome = .error .tooDeep ∧ q.cluster = p.cluster ∧ q.effects = p.effects
  escaped : ∀ failure, outcome = .error failure → Escapes failure

theorem adds_no_patch {r : Reconciler} {job : Job Bool}
    (hj : job = r.shrink ∨ ∃ configs modes, job = r.update configs modes) :
    Within (Adds (· ≠ .patch)) job := by
  obtain ⟨started, prepare, x, rfl⟩ := Reconciler.exists_reconcile hj
  exact (frame_adds _).reconcile (adds_request (by simp [Call.method]))
    (adds_request (by simp [Call.method])) (adds_write fun _ => by simp) started prepare x

theorem escapes_of_absorb {r : Reconciler} {job : Job Bool} {p q : Progress}
    {ended : Except Failure Bool} {failure : Failure}
    (hj : job = r.shrink ∨ ∃ configs modes, job = r.update configs modes)
    (h : Reconciles job p ended q) (he : absorb ended = .error failure) : Escapes failure := by
  obtain ⟨rfl, unreported⟩ := absorb_error he
  exact h.escapes hj unreported

/-- Every event of an object with metadata is handled by its class, whatever is stored and listed
and whichever calls are refused. What a reconcile reports never escapes from a handler or from a
resync, and neither does a refused patch. -/
theorem events_are_dispatched {c : Controller} {event object : Tree} {fields : Entries}
    {p q : Progress} {outcome : Except Failure Unit}
    (named : Access.metadata object = .ok fields)
    (h : Job.run (c.handle event object) p = (outcome, q)) :
    Dispatched c event object fields p outcome q ∧
      ∀ start failure last, Job.run c.resync start = (.error failure, last) → Escapes failure := by
  refine ⟨?_, fun start failure last hr => ?_⟩
  · rcases run_handle named h with
      ⟨ignored, rfl, rfl⟩ | ⟨original, gone, h⟩ | ⟨original, stays, due, h⟩
    · refine ⟨fun _ => ⟨rfl, rfl⟩, fun original gone => ?_, fun original stays due => ?_,
        fun original stays due => ?_, by simp⟩
      · rcases ignored with clone | ⟨⟨_, _⟩, _⟩ <;> simp_all
      · rcases ignored with clone | ⟨_, _, _⟩ <;> simp_all
      · rcases ignored with clone | ⟨_, _, _⟩ <;> simp_all
    · obtain ⟨ended, rfl, reconciles⟩ := run_handleRemoval h
      refine ⟨fun ignored => ?_, fun _ _ => ?_, fun _ stays due => ?_, fun _ stays due => ?_,
        fun failure he => ?_⟩
      · rcases gone with rfl | gone <;> simp_all
      · exact ⟨ended, rfl, reconciles, reconciles.adds (adds_no_patch (.inl rfl))⟩
      · rcases gone with rfl | gone <;> simp_all
      · rcases gone with rfl | gone <;> simp_all
      · exact escapes_of_absorb (.inl rfl) reconciles he
    · rcases Contribution.ends_read (isMap_of_metadata named) id with
        ⟨contribution, hr, _⟩ | ⟨deep, hr⟩
      · have copied := (Contribution.copied_of_read hr).2
        obtain ⟨ended, mid, rfl, reconciles, patched⟩ := run_handleRequest named hr h
        refine ⟨fun ignored => ?_, fun _ gone => ?_, fun _ _ _ _ => ?_,
          fun _ _ _ deep => absurd copied deep, fun failure he => ?_⟩
        · rcases due with rfl | rfl <;> simp_all
        · rcases gone with rfl | gone <;> simp_all
        · exact ⟨contribution, ended, mid, hr, rfl, reconciles,
            reconciles.adds (adds_no_patch (.inr ⟨_, _, rfl⟩)), patched⟩
        · exact escapes_of_absorb (.inr ⟨_, _, rfl⟩) reconciles he
      · obtain ⟨rfl, cluster, effects⟩ := run_handleRequest_unread hr h
        refine ⟨fun ignored => ?_, fun _ gone => ?_, fun _ _ _ copied => absurd copied deep,
          fun _ _ _ _ => ⟨rfl, cluster, effects⟩, fun failure he => ?_⟩
        · rcases due with rfl | rfl <;> simp_all
        · rcases gone with rfl | gone <;> simp_all
        · cases he
          exact ⟨rfl, by simp⟩
  · obtain ⟨ended, he, reconciles⟩ := run_resync hr
    exact escapes_of_absorb (.inr ⟨_, _, rfl⟩) reconciles he.symm

/-- The write of a reconcile is refused for good, and so is the patch behind it. -/
def Sample.refused : Progress :=
  let refusal := [some { status := some 500, reason := some "Down" }]
  { start [("replicas", .int 2)] [] with
    cluster := { (start [("replicas", .int 2)] []).cluster with
      schedule := { replace := refusal, patch := refusal } } }

theorem events_are_dispatched_refused :
    ∃ q, Dispatched { reconciler := Sample.reconciler } (.text "ADDED") (Sample.tenant "a" [])
        [("name", .text "a"), ("namespace", .text "ns")] Sample.refused (.ok ()) q ∧
      q.effects.getLast? = some (.call (.patch (.text "ns") (.text "a") "Failed")) := by
  have ended : (Job.run (Controller.handle { reconciler := Sample.reconciler } (.text "ADDED")
      (Sample.tenant "a" [])) Sample.refused).1 = .ok () := by
    decide +kernel
  have patched : (Job.run (Controller.handle { reconciler := Sample.reconciler } (.text "ADDED")
      (Sample.tenant "a" [])) Sample.refused).2.effects.getLast? =
        some (.call (.patch (.text "ns") (.text "a") "Failed")) := by
    decide +kernel
  exact ⟨_, (events_are_dispatched rfl (run_of_outcome ended)).1, patched⟩

end TenantSizing
