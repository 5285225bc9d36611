import TenantSizing.Controller.History
import TenantSizing.Proofs.Runs

namespace TenantSizing

open Job

namespace Job

variable {α β : Type} {R : Progress → Progress → Prop} {job : Job α} {next : α → Job β}

/-- However the job ends, the progress after it is related to the one before. -/
def Within (R : Progress → Progress → Prop) (job : Job α) : Prop :=
  ∀ p, R p (run job p).2

/-- A relation that can be followed step by step, and that no notice breaks. -/
structure Frame (R : Progress → Progress → Prop) : Prop where
  notices : ∀ p notices, R p { p with notices := notices }
  trans : ∀ {p q s}, R p q → R q s → R p s

namespace Frame

variable (frame : Frame R)

include frame

theorem pure (value : α) : Within R (pure value : Job α) := fun p => frame.notices p p.notices

theorem fail (failure : Failure) : Within R (fail failure : Job α) := fun p =>
  frame.notices p p.notices

theorem get : Within R (get : Job Progress) := fun p => frame.notices p p.notices

theorem note (notice : Notice) : Within R (note notice) := fun p => frame.notices p _

theorem ofReport (report : Report α) : Within R (ofReport report) := by
  intro p
  rw [run_ofReport]
  exact frame.notices p _

theorem bind (h : Within R job) (hn : ∀ a, Within R (next a)) : Within R (job >>= next) := by
  intro p
  have before := h p
  rw [run_bind]
  rcases hr : run job p with ⟨failure | a, mid⟩
  · rw [hr] at before
    exact before
  · rw [hr] at before
    exact frame.trans before (hn a mid)

theorem map (h : Within R job) (f : α → β) : Within R (f <$> job) := by
  rw [map_eq_pure_bind]
  exact frame.bind h fun a => frame.pure (f a)

/-- A failure is handled on what has been done before it. -/
theorem tryCatch {handle : Failure → Job α} (h : Within R job)
    (hh : ∀ failure, Within R (handle failure)) : Within R (tryCatch job handle) := by
  intro p
  have before := h p
  rw [run_tryCatch]
  rcases hr : run job p with ⟨failure | a, mid⟩
  · rw [hr] at before
    exact frame.trans before (hh failure mid)
  · rw [hr] at before
    exact before

omit frame in
theorem outcome (h : Within R job) : Within R (outcome job) := by
  intro p
  rw [run_outcome]
  exact h p

section Reconciling

variable {r : Reconciler}

theorem fetch (getting : Within R (request (.get r.space r.configName))) : Within R r.fetch := by
  unfold Reconciler.fetch Access.getConfig
  refine frame.bind ?_ fun config => ?_
  · refine frame.bind getting fun answer => ?_
    have refuse : ∀ fault, Within R (do
        Job.note (.getFailed (Access.configKey r.space r.configName) fault)
        Job.fail (.ofApi ("OperandConfig " ++ Access.configKey r.space r.configName) fault) :
          Job Tree) :=
      fun fault => frame.bind (frame.note _) fun _ => frame.fail _
    cases answer with
    | some fault => exact refuse fault
    | none =>
      refine frame.bind frame.get fun progress => ?_
      cases progress.cluster.config with
      | some config => exact frame.pure config
      | none => exact refuse _
  · split
    · exact frame.bind (frame.ofReport _) fun _ => frame.pure _
    · exact frame.fail _

theorem aggregate (listing : Within R (request (.list Access.liveSelector))) (services : List Tree)
    (rules : RuleSet) (x : Extreme) : Within R (r.aggregate services rules x) := by
  unfold Reconciler.aggregate Reconciler.demand Reconciler.liveTenants Access.listTenants
  refine frame.bind (frame.bind (frame.bind ?_ fun tenants => ?_) fun items => ?_)
    fun demand => frame.ofReport _
  · refine frame.bind listing fun answer => ?_
    cases answer with
    | some fault => exact frame.bind (frame.note _) fun _ => frame.fail _
    | none => exact frame.bind frame.get fun _ => frame.pure _
  · exact frame.bind (frame.ofReport _) fun _ => frame.pure _
  · exact frame.ofReport _

theorem reconcile (getting : Within R (request (.get r.space r.configName)))
    (listing : Within R (request (.list Access.liveSelector)))
    (writing : ∀ config services unchanged, Within R (r.write config services unchanged))
    (started : Notice) (prepare : Scope → List Tree → Report (List Tree)) (x : Extreme) :
    Within R (r.reconcile started prepare x) := by
  unfold Reconciler.reconcile
  refine frame.bind (frame.fetch getting) fun found => ?_
  refine frame.bind (frame.ofReport _) fun rules => ?_
  refine frame.bind (frame.note _) fun _ => ?_
  refine frame.bind (frame.ofReport _) fun prepared => ?_
  refine frame.bind (frame.aggregate listing _ _ _) fun services => ?_
  refine frame.bind (frame.ofReport _) fun unchanged => ?_
  exact frame.bind (writing _ _ _) fun _ => frame.pure _

end Reconciling

section Controlling

variable {c : Controller}
  (pausing : ∀ p : Progress, R p { p with effects := p.effects ++ [.sleep Controller.retryPause] })

include pausing

/-- Attempts put behind each other, by induction on how many are left. -/
theorem attemptFrom {task : String} {work : Nat → Job Bool} (h : ∀ attempt, Within R (work attempt))
    (attempt left : Nat) : Within R (Controller.attemptFrom task work attempt left) := by
  induction left generalizing attempt with
  | zero =>
    refine frame.tryCatch (h attempt) fun failure => ?_
    cases failure with
    | conflict message => exact frame.bind (frame.note _) fun _ => frame.fail _
    | _ => exact frame.bind (frame.pure ()) fun _ => frame.fail _
  | succ left ih =>
    refine frame.tryCatch (h attempt) fun failure => ?_
    cases failure with
    | conflict message =>
      exact frame.bind (frame.note _) fun _ => frame.bind pausing fun _ => ih (attempt + 1)
    | _ => exact frame.fail _

theorem withRetry (task : String) {work : Job Bool} (h : Within R work) :
    Within R (Controller.withRetry task work) :=
  frame.attemptFrom pausing (fun _ => h) 1 (Controller.maxAttempts - 1)

omit pausing in
theorem setPhase (patching : c.reconciler.dryRun = false → ∀ space name phase,
      Within R (request (.patch space name phase))) (object : Tree) (phase : String) :
    Within R (c.setPhase object phase) := by
  unfold Controller.setPhase
  split
  · exact frame.pure ()
  · rename_i due
    have wet : c.reconciler.dryRun = false := by
      simp only [Bool.or_eq_true, not_or] at due
      simpa using due.1
    refine frame.bind (frame.ofReport _) fun fields => frame.bind ?_ fun _ => frame.pure ()
    unfold Access.setPhase
    refine frame.bind (patching wet _ _ _) fun answer => ?_
    cases answer with
    | some fault => exact frame.bind (frame.note _) fun _ => frame.pure false
    | none => exact frame.pure true

omit pausing in
theorem report (failure : Failure) {report : Job α} (h : Within R report) :
    Within R (if failure.ofReconcile then report else Job.fail failure) := by
  split
  · exact h
  · exact frame.fail failure

theorem handleRemoval (shrinking : Within R c.reconciler.shrink) (key : String) :
    Within R (c.handleRemoval key) := by
  unfold Controller.handleRemoval
  refine frame.bind (frame.note _) fun _ => ?_
  refine frame.bind (outcome (frame.withRetry pausing _ shrinking)) fun ended => ?_
  cases ended with
  | ok unchanged => exact frame.pure ()
  | error failure => exact frame.report failure (frame.note _)

variable (updating : ∀ configs modes, Within R (c.reconciler.update configs modes))

include updating

theorem handleRequest (patching : c.reconciler.dryRun = false → ∀ space name phase,
      Within R (request (.patch space name phase))) (event key : String) (object : Tree) :
    Within R (c.handleRequest event key object) := by
  unfold Controller.handleRequest
  refine frame.bind (frame.note _) fun _ => frame.bind (frame.ofReport _) fun contribution => ?_
  refine frame.bind (outcome (frame.withRetry pausing _ (updating _ _))) fun ended => ?_
  cases ended with
  | ok unchanged =>
    cases unchanged with
    | true => exact frame.bind (frame.pure ()) fun _ => frame.setPhase patching object _
    | false => exact frame.bind (frame.note _) fun _ => frame.setPhase patching object _
  | error failure =>
    exact frame.report failure (frame.bind (frame.note _) fun _ => frame.setPhase patching object _)

theorem resync : Within R c.resync := by
  unfold Controller.resync
  refine frame.bind (outcome (frame.withRetry pausing _ (updating [] _))) fun ended => ?_
  cases ended with
  | ok unchanged => exact frame.pure ()
  | error failure => exact frame.report failure (frame.note _)

variable (shrinking : Within R c.reconciler.shrink)
  (patching : c.reconciler.dryRun = false → ∀ space name phase,
    Within R (request (.patch space name phase)))

include shrinking patching

theorem handle (event object : Tree) : Within R (c.handle event object) := by
  unfold Controller.handle
  refine frame.bind (frame.ofReport _) fun fields => ?_
  dsimp only
  split
  · exact frame.pure ()
  · split
    · exact frame.handleRemoval pausing shrinking _
    · split
      · exact frame.handleRequest pausing updating patching _ _ object
      · exact frame.pure ()

/-- Whatever happens around a controller, where the changes that others make keep the relation. -/
theorem meet (stopping : ∀ p : Progress, R p { p with stopped := true })
    {occurrence : Occurrence}
    (others : ∀ change, (∀ cluster : Cluster, (change cluster).config = cluster.config) →
      Within R (Controller.changeCluster change))
    (h : ∀ object, occurrence ≠ .config object) : Within R (c.meet occurrence) := by
  have silently : ∀ work, Within R work → Within R (Controller.silently work) := fun work hw =>
    frame.bind hw fun _ => frame.pure none
  cases occurrence with
  | event type object =>
    exact silently _ (frame.handle pausing updating shrinking patching type object)
  | resync => exact silently _ (frame.resync pausing updating)
  | update configs modes => exact frame.map (updating configs modes) some
  | shrink => exact frame.map shrinking some
  | stop => exact silently _ (frame.bind (frame.note _) fun _ => stopping)
  | tenants items => exact silently _ (others _ fun _ => rfl)
  | config object => exact absurd rfl (h object)
  | answers method queue => exact silently _ (others _ fun _ => rfl)

end Controlling

end Frame

end Job

/-- What has been done outside in between, with calls by these methods only. -/
def Adds (allowed : Method → Prop) (p q : Progress) : Prop :=
  ∃ more, q.effects = p.effects ++ more ∧ ∀ call, .call call ∈ more → allowed call.method

variable {allowed : Method → Prop}

theorem Adds.of_eq {p q : Progress} (h : q.effects = p.effects) : Adds allowed p q :=
  ⟨[], by simp [h], by simp⟩

theorem frame_adds (allowed : Method → Prop) : Frame (Adds allowed) where
  notices _ _ := .of_eq rfl
  trans := by
    rintro p q s ⟨more, he, hm⟩ ⟨later, hl, hn⟩
    refine ⟨more ++ later, by rw [hl, he, List.append_assoc], fun call hc => ?_⟩
    rcases List.mem_append.mp hc with hc | hc
    · exact hm call hc
    · exact hn call hc

theorem adds_request {call : Call} (h : allowed call.method) :
    Within (Adds allowed) (request call) := by
  intro p
  refine ⟨[.call call], rfl, fun other ho => ?_⟩
  cases List.mem_singleton.mp ho
  exact h

theorem adds_pause (p : Progress) :
    Adds allowed p { p with effects := p.effects ++ [.sleep Controller.retryPause] } :=
  ⟨_, rfl, by simp⟩

/-- A write calls by no other method than its own, and in a dry run it does not call at all. -/
theorem adds_write {r : Reconciler} (h : r.dryRun = false → allowed .replace) (config : Tree)
    (services : List Tree) (unchanged : Bool) :
    Within (Adds allowed) (r.write config services unchanged) := by
  have frame := frame_adds allowed
  unfold Reconciler.write
  split
  · exact frame.note _
  · rename_i wet
    have h := h (by simpa using wet)
    refine frame.bind ?_ fun _ => ?_
    · unfold Access.replaceConfig
      refine frame.bind (frame.ofReport _) fun fields => ?_
      refine frame.bind (adds_request h) fun answer => ?_
      cases answer with
      | some fault => exact frame.bind (frame.note _) fun _ => frame.fail _
      | none => exact frame.bind (fun _ => .of_eq rfl) fun _ => frame.pure _
    · split
      · exact frame.note _
      · exact frame.pure _

end TenantSizing
