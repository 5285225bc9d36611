import TenantSizing.Controller
import TenantSizing.Proofs.Outcomes

namespace TenantSizing

open Job Controller

/-- One attempt of a reconcile: from where to where it leads, and how it ends. -/
structure Attempt where
  start : Progress
  outcome : Except Failure Bool
  finish : Progress

namespace Attempt

variable (attempt : Attempt)

def effects : List Effect :=
  attempt.finish.effects.drop attempt.start.effects.length

/-- One of the attempt's calls has been refused with 409. -/
def Conflicted : Prop :=
  ∃ call fault, .call call ∈ attempt.effects ∧ attempt.start.cluster.refusal call = some fault ∧
    fault.status = some 409

/-- None of the attempt's calls has been refused. -/
def Undisturbed : Prop :=
  ∀ call, .call call ∈ attempt.effects → attempt.start.cluster.refusal call = none

variable {attempt} in
theorem effects_eq {more : List Effect}
    (h : attempt.finish.effects = attempt.start.effects ++ more) : attempt.effects = more := by
  rw [effects, h, List.drop_left]

end Attempt

/-- Attempts of a job in turn. Behind one that conflicts there is a pause, and the next one starts
from where it has led. The last one tells how they end. -/
inductive Attempts (job : Job Bool) :
    Progress → List Attempt → Except Failure Bool → Progress → Prop where
  | last {p mid q : Progress} {outcome : Except Failure Bool} (ran : Job.run job p = (outcome, mid))
      (cluster : q.cluster = mid.cluster) (effects : q.effects = mid.effects) :
      Attempts job p [⟨p, outcome, mid⟩] outcome q
  | again {p mid next q : Progress} {message : String} {attempts : List Attempt}
      {outcome : Except Failure Bool} (ran : Job.run job p = (.error (.conflict message), mid))
      (cluster : next.cluster = mid.cluster)
      (effects : next.effects = mid.effects ++ [.sleep retryPause])
      (rest : Attempts job next attempts outcome q) :
      Attempts job p (⟨p, .error (.conflict message), mid⟩ :: attempts) outcome q

/-- Behind each attempt there is another one exactly if it conflicts and some budget is left. -/
def Retried (budget : Nat) (attempts : List Attempt) : Prop :=
  ∀ i attempt, attempts[i]? = some attempt → (i + 1 < attempts.length ↔
    (∃ message, attempt.outcome = .error (.conflict message)) ∧ i + 1 < budget)

theorem retried_single {attempt : Attempt} {budget : Nat}
    (h : (∃ message, attempt.outcome = .error (.conflict message)) → budget ≤ 1) :
    Retried budget [attempt] := by
  intro i other hi
  cases i with
  | zero =>
    cases Option.some.inj hi
    simpa using h
  | succ i => simp at hi

theorem retried_cons {attempt : Attempt} {attempts : List Attempt} {budget : Nat} {message : String}
    (conflicts : attempt.outcome = .error (.conflict message)) (left : 0 < budget)
    (begun : attempts ≠ []) (h : Retried budget attempts) :
    Retried (budget + 1) (attempt :: attempts) := by
  have begun := List.length_pos_of_ne_nil begun
  intro i other hi
  cases i with
  | zero =>
    cases Option.some.inj hi
    simp [begun, left, conflicts]
  | succ i =>
    have later := h i other hi
    rw [List.length_cons, Nat.add_lt_add_iff_right, later, Nat.add_lt_add_iff_right]

theorem Attempts.ne_nil {job : Job Bool} {p q : Progress} {attempts : List Attempt}
    {outcome : Except Failure Bool} (h : Attempts job p attempts outcome q) : attempts ≠ [] := by
  cases h <;> simp

namespace Controller

variable {task : String} {job : Job Bool} {p q : Progress} {outcome : Except Failure Bool}

/-- By induction on how many attempts are left behind the first one. -/
theorem run_attemptFrom {number left : Nat}
    (h : Job.run (attemptFrom task (fun _ => job) number left) p = (outcome, q)) :
    ∃ attempts, Attempts job p attempts outcome q ∧ Retried (left + 1) attempts := by
  induction left generalizing number p with
  | zero =>
    have single : ∀ mid, Job.run job p = (outcome, mid) → q.cluster = mid.cluster →
        q.effects = mid.effects →
        ∃ attempts, Attempts job p attempts outcome q ∧ Retried 1 attempts :=
      fun mid ran cluster effects =>
        ⟨_, .last ran cluster effects, retried_single fun _ => Nat.le_refl 1⟩
    rw [attemptFrom, run_tryCatch] at h
    rcases hj : Job.run job p with ⟨failure | unchanged, mid⟩
    · rw [hj] at h
      cases failure <;> cases h <;> exact single _ hj rfl rfl
    · rw [hj] at h
      cases h
      exact single _ hj rfl rfl
  | succ left ih =>
    rw [attemptFrom, run_tryCatch] at h
    rcases hj : Job.run job p with ⟨failure | unchanged, mid⟩
    · rw [hj] at h
      cases failure with
      | conflict message =>
        dsimp only at h
        rw [run_bind_of_ok (run_note _ _), run_bind_of_ok (run_act _ _)] at h
        obtain ⟨attempts, rest, retried⟩ := ih h
        refine ⟨_, .again hj ?_ ?_ rest, retried_cons rfl (Nat.succ_pos left) rest.ne_nil retried⟩
        · rfl
        · rfl
      | _ =>
        cases h
        exact ⟨_, .last hj rfl rfl, retried_single (by simp)⟩
    · rw [hj] at h
      cases h
      exact ⟨_, .last hj rfl rfl, retried_single (by simp)⟩

/-- A reconcile with retries is a series of attempts of it. -/
theorem run_withRetry (h : Job.run (withRetry task job) p = (outcome, q)) :
    ∃ attempts, Attempts job p attempts outcome q ∧ Retried maxAttempts attempts :=
  run_attemptFrom h

end Controller

namespace Attempts

variable {job : Job Bool} {p q : Progress} {attempts : List Attempt} {outcome : Except Failure Bool}

theorem ran (h : Attempts job p attempts outcome q) :
    ∀ attempt ∈ attempts, Job.run job attempt.start = (attempt.outcome, attempt.finish) := by
  induction h with
  | last ran => simpa using ran
  | again ran _ _ _ ih => simpa using ⟨ran, ih⟩

/-- What all attempts have done outside, if each only adds to what had been done. -/
theorem effects_eq (h : Attempts job p attempts outcome q)
    (adds : ∀ p, p.effects <+: (Job.run job p).2.effects) :
    q.effects = p.effects ++ [.sleep retryPause].intercalate (attempts.map Attempt.effects) := by
  induction h with
  | @last p mid q outcome ran _ effects =>
    obtain ⟨more, hm⟩ := adds p
    rw [ran] at hm
    have own : Attempt.effects ⟨p, outcome, mid⟩ = more := Attempt.effects_eq hm.symm
    rw [effects, ← hm, List.map_singleton, own]
    simp [List.intercalate]
  | @again p mid next q message attempts outcome ran _ effects rest ih =>
    obtain ⟨more, hm⟩ := adds p
    rw [ran] at hm
    have own : Attempt.effects ⟨p, .error (.conflict message), mid⟩ = more :=
      Attempt.effects_eq hm.symm
    obtain ⟨second, others, rfl⟩ := List.exists_cons_of_ne_nil rest.ne_nil
    rw [ih, effects, ← hm, List.map_cons, List.map_cons, List.map_cons, own]
    simp [List.intercalate]

/-- A job that leaves nothing behind where it fails is attempted on the same objects again. -/
theorem starts (h : Attempts job p attempts outcome q) (atomic : Atomic job) :
    ∀ attempt ∈ attempts, attempt.start.cluster.config = p.cluster.config ∧
      attempt.start.cluster.tenants = p.cluster.tenants := by
  induction h with
  | last => simp
  | again ran cluster _ _ ih =>
    have stays := atomic _ _ _ ran
    rw [cluster, stays.config, stays.tenants] at ih
    simpa using ih

theorem getLast (h : Attempts job p attempts outcome q) :
    ∃ last, attempts.getLast? = some last ∧ last.outcome = outcome ∧
      q.cluster = last.finish.cluster := by
  induction h with
  | last ran cluster => exact ⟨_, rfl, rfl, cluster⟩
  | again _ _ _ _ ih =>
    obtain ⟨last, hl, ended⟩ := ih
    exact ⟨last, by rw [List.getLast?_cons, hl]; rfl, ended⟩

theorem config_of_error (h : Attempts job p attempts outcome q) (atomic : Atomic job)
    {failure : Failure} (ho : outcome = .error failure) : q.cluster.config = p.cluster.config := by
  obtain ⟨last, hl, ended, cluster⟩ := h.getLast
  have hm := List.mem_of_getLast? hl
  have ran := h.ran last hm
  rw [ended, ho] at ran
  rw [cluster, (atomic _ _ _ ran).config, (h.starts atomic last hm).1]

end Attempts

section Reconciling

variable {r : Reconciler} {started : Notice} {prepare : Scope → List Tree → Report (List Tree)}
  {x : Extreme} {attempt : Attempt}

theorem effects_added (r : Reconciler) (started : Notice)
    (prepare : Scope → List Tree → Report (List Tree)) (x : Extreme) (p : Progress) :
    p.effects <+: (Job.run (r.reconcile started prepare x) p).2.effects := by
  obtain ⟨calls, _, effects, _⟩ := Reconciler.run_reconcile_calls (r := r) (p := p) rfl
  exact ⟨_, effects.symm⟩

/-- An attempt ends in a conflict exactly if one of its calls was refused as one. -/
theorem conflicted_iff (sound : Reconciler.Sound prepare)
    (ran : Job.run (r.reconcile started prepare x) attempt.start =
      (attempt.outcome, attempt.finish)) :
    attempt.Conflicted ↔ ∃ message, attempt.outcome = .error (.conflict message) := by
  constructor
  · rintro ⟨call, fault, made, refused, conflict⟩
    obtain ⟨calls, turn, effects, _⟩ := Reconciler.run_reconcile_calls ran
    rw [Attempt.effects_eq effects] at made
    obtain ⟨what, fails⟩ := turn.refused call (by simpa using made) fault refused
    obtain ⟨message, he⟩ := Failure.exists_conflict conflict what
    exact ⟨message, by rw [fails, he]⟩
  · rintro ⟨message, ho⟩
    rw [ho] at ran
    obtain ⟨calls, blames⟩ := Reconciler.blames_reconcile sound ran
    obtain ⟨call, hc, fault, what, refused, he⟩ := blames.blamed rfl
    refine ⟨call, fault, ?_, refused, Failure.ofApi_eq_conflict he.symm⟩
    rw [Attempt.effects_eq blames.effects]
    exact List.mem_map_of_mem hc

theorem Attempt.Undisturbed.not_refusal (h : attempt.Undisturbed) (sound : Reconciler.Sound prepare)
    (ran : Job.run (r.reconcile started prepare x) attempt.start =
      (attempt.outcome, attempt.finish))
    {failure : Failure} (ho : attempt.outcome = .error failure) : failure.isRefusal = false := by
  rw [ho] at ran
  obtain ⟨calls, blames⟩ := Reconciler.blames_reconcile sound ran
  by_contra hf
  obtain ⟨call, hc, fault, what, refused, _⟩ := blames.blamed (by simpa using hf)
  have accepted := h call (by
    rw [Attempt.effects_eq blames.effects]
    exact List.mem_map_of_mem hc)
  rw [accepted] at refused
  cases refused

/-- The first thing that an attempt does is reading the object, and all that it does are calls. -/
theorem attempt_effects
    (ran : Job.run (r.reconcile started prepare x) attempt.start =
      (attempt.outcome, attempt.finish)) :
    ∃ calls : List Call,
      attempt.effects = .call (.get r.space r.configName) :: calls.map Effect.call := by
  obtain ⟨calls, turn, effects, _⟩ := Reconciler.run_reconcile_calls ran
  obtain ⟨space, name, planned⟩ := turn.planned
  rw [Attempt.effects_eq effects]
  cases calls with
  | nil => exact absurd rfl turn.begun
  | cons first rest =>
    obtain ⟨rfl, _⟩ := List.cons_prefix_cons.mp planned
    exact ⟨rest, rfl⟩

end Reconciling

/-- Conflicts are transparent, and other failures are final. A reconcile with retries is a series of
attempts. Each of them starts with a fresh read, and finds what was stored and listed in the
beginning. Behind an attempt there is another one exactly if one of its three calls was refused with
409 and the budget is not used up, and there is one pause between two attempts. Where the last one
is not disturbed, outcome and stored object are those of a single reconcile without any refusal.
Where all of them conflict, the conflict is raised, and the stored object is as before. -/
theorem conflicts_are_transparent {r : Reconciler} {job : Job Bool} {task : String} {p q : Progress}
    {outcome : Except Failure Bool}
    (hj : job = r.shrink ∨ ∃ configs modes, job = r.update configs modes)
    (h : Job.run (withRetry task job) p = (outcome, q)) :
    ∃ attempts, Attempts job p attempts outcome q ∧
      (∀ i attempt, attempts[i]? = some attempt →
        (i + 1 < attempts.length ↔ attempt.Conflicted ∧ i + 1 < maxAttempts)) ∧
      (∀ attempt ∈ attempts,
        (∃ calls : List Call,
          attempt.effects = .call (.get r.space r.configName) :: calls.map Effect.call) ∧
        attempt.start.cluster.config = p.cluster.config ∧
        attempt.start.cluster.tenants = p.cluster.tenants) ∧
      q.effects = p.effects ++ [.sleep retryPause].intercalate (attempts.map Attempt.effects) ∧
      (∀ last ∈ attempts.getLast?, last.Undisturbed →
        ∀ calm : Progress, Becalmed p.cluster calm.cluster →
          (Job.run job calm).1 = outcome ∧ (Job.run job calm).2.cluster.config = q.cluster.config) ∧
      ((∀ attempt ∈ attempts, attempt.Conflicted) →
        (∃ message, outcome = .error (.conflict message)) ∧
          q.cluster.config = p.cluster.config) := by
  obtain ⟨started, prepare, x, sound, rfl⟩ := Reconciler.exists_sound hj
  obtain ⟨attempts, made, retried⟩ := run_withRetry h
  have atomic : Atomic (r.reconcile started prepare x) := Reconciler.atomic_reconcile
  have ran := made.ran
  have starts := made.starts atomic
  obtain ⟨final, hl, ended, cluster⟩ := made.getLast
  have hm := List.mem_of_getLast? hl
  refine ⟨attempts, made, fun i attempt hi => ?_, fun attempt ha => ?_, ?_, ?_, fun all => ?_⟩
  · rw [retried i attempt hi, conflicted_iff sound (ran attempt (List.mem_of_getElem? hi))]
  · exact ⟨attempt_effects (ran attempt ha), starts attempt ha⟩
  · exact made.effects_eq (effects_added r started prepare x)
  · intro last hlast undisturbed calm calmed
    obtain rfl : final = last := Option.some.inj (hl.symm.trans hlast)
    have from_there : Becalmed final.start.cluster calm.cluster :=
      ⟨calmed.config.trans (starts final hm).1.symm, calmed.tenants.trans (starts final hm).2.symm,
        calmed.quiet⟩
    rw [← ended, cluster]
    exact Reconciler.reconcile_calm from_there (ran final hm) fun failure ho =>
      undisturbed.not_refusal sound (ran final hm) ho
  · obtain ⟨message, conflict⟩ := (conflicted_iff sound (ran final hm)).mp (all final hm)
    rw [ended] at conflict
    exact ⟨⟨message, conflict⟩, made.config_of_error atomic conflict⟩

/-- Each of the three calls of a reconcile conflicts once. -/
def Sample.embattled : Progress :=
  let conflict := [some { status := some 409, reason := some "Conflict" }]
  let p := start [("replicas", .int 2)]
    [tenant "a" [("services", .list [service [("replicas", .int 3)]])]]
  { p with cluster := { p.cluster with
    schedule := { get := conflict, list := conflict, replace := conflict } } }

theorem conflicts_are_transparent_embattled :
    ∃ attempts q,
      Job.run (withRetry "Resync" (Sample.reconciler.update [] (.map []))) Sample.embattled =
        (.ok false, q) ∧
      Attempts (Sample.reconciler.update [] (.map [])) Sample.embattled attempts (.ok false) q ∧
      q.effects =
        [.sleep retryPause].intercalate (attempts.map Attempt.effects) := by
  have ended :
      (Job.run (withRetry "Resync" (Sample.reconciler.update [] (.map []))) Sample.embattled).1 =
      .ok false := by
    decide +kernel
  have h := run_of_outcome ended
  obtain ⟨attempts, made, _, _, effects, _⟩ := conflicts_are_transparent (.inr ⟨_, _, rfl⟩) h
  exact ⟨attempts, _, h, made, effects⟩

end TenantSizing
