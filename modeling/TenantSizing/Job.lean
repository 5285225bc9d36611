import TenantSizing.Cluster
import TenantSizing.Report

namespace TenantSizing

/-- The cluster, what has been done outside so far, what has been reported, and whether the
controller has been told to stop. -/
structure Progress where
  cluster : Cluster
  effects : List Effect := []
  notices : List Notice := []
  stopped : Bool := false

/-- Work that calls the cluster. It may fail, and what it did before stays done. -/
abbrev Job := ExceptT Failure (StateM Progress)

namespace Job

variable {α : Type}

/-- Runs a job: how it ends, and the progress made. -/
def run (job : Job α) (progress : Progress) : Except Failure α × Progress :=
  StateT.run (ExceptT.run job) progress

def note (notice : Notice) : Job Unit :=
  modify fun p => { p with notices := p.notices ++ [notice] }

def act (effect : Effect) : Job Unit :=
  modify fun p => { p with effects := p.effects ++ [effect] }

def fail (failure : Failure) : Job α :=
  throw failure

def ofReport (report : Report α) : Job α := do
  modify fun p => { p with notices := p.notices ++ report.notices }
  match report.outcome with
  | .ok value => pure value
  | .error failure => fail failure

def outcome (job : Job α) : Job (Except Failure α) :=
  tryCatch (.ok <$> job) fun failure => pure (.error failure)

def request (call : Call) : Job (Option ApiFault) := do
  act (.call call)
  let p ← get
  let schedule := p.cluster.schedule
  set { p with cluster := { p.cluster with schedule := schedule.after call.method } }
  pure (schedule.answer call.method)

def stop : Job Unit := do
  note .stopping
  modify fun p => { p with stopped := true }

def isStopped : Job Bool := do
  pure (← get).stopped

@[simp] theorem run_pure (value : α) (progress : Progress) :
    run (pure value : Job α) progress = (.ok value, progress) := rfl

@[simp] theorem run_fail (failure : Failure) (progress : Progress) :
    run (fail failure : Job α) progress = (.error failure, progress) := rfl

theorem run_bind {β : Type} (job : Job α) (next : α → Job β) (progress : Progress) :
    run (job >>= next) progress =
      match run job progress with
      | (.ok value, after) => run (next value) after
      | (.error failure, after) => (.error failure, after) := by
  have whole : run (job >>= next) progress =
      ExceptT.bindCont next (run job progress).1 (run job progress).2 := rfl
  rw [whole]
  rcases run job progress with ⟨_ | _, _⟩ <;> rfl

@[simp] theorem run_note (notice : Notice) (progress : Progress) :
    run (note notice) progress =
      (.ok (), { progress with notices := progress.notices ++ [notice] }) := rfl

@[simp] theorem run_act (effect : Effect) (progress : Progress) :
    run (act effect) progress =
      (.ok (), { progress with effects := progress.effects ++ [effect] }) := rfl

/-- A failure is handled on the progress that was made before it. -/
theorem run_tryCatch (job : Job α) (handle : Failure → Job α) (progress : Progress) :
    run (tryCatch job handle) progress =
      match run job progress with
      | (.ok value, after) => (.ok value, after)
      | (.error failure, after) => run (handle failure) after := by
  rcases h : run job progress with ⟨_ | _, _⟩ <;>
    simp only [run, ExceptT.run, StateT.run] at h ⊢ <;>
    simp only [tryCatch, tryCatchThe, MonadExceptOf.tryCatch, ExceptT.tryCatch, ExceptT.mk, bind,
      StateT.bind, h]
  rfl

@[simp] theorem run_outcome (job : Job α) (progress : Progress) :
    run (outcome job) progress = (.ok (run job progress).1, (run job progress).2) := by
  rw [outcome, run_tryCatch, map_eq_pure_bind, run_bind]
  rcases run job progress with ⟨_ | _, _⟩ <;> rfl

end Job

end TenantSizing
