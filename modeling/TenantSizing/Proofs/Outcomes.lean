import TenantSizing.Proofs.Calls
import TenantSizing.Proofs.Configs
import TenantSizing.Proofs.Demands

namespace TenantSizing

open Job

/-- A refused call has led to the failure. -/
def Failure.isRefusal : Failure → Bool
  | .notFound _ | .conflict _ | .clusterApi _ _ | .api _ => true
  | _ => false

theorem Failure.ofApi_eq_conflict {what message : String} {fault : ApiFault}
    (h : ofApi what fault = .conflict message) : fault.status = some 409 := by
  unfold ofApi at h
  split at h
  · cases h
  · split at h
    · assumption
    · cases h

theorem Failure.exists_conflict {fault : ApiFault} (h : fault.status = some 409) (what : String) :
    ∃ message, ofApi what fault = .conflict message :=
  ⟨what ++ " was modified concurrently", by simp [ofApi, h]⟩

theorem Failure.ofReconcile_ofApi (what : String) (fault : ApiFault) :
    (ofApi what fault).ofReconcile = true := by
  unfold ofApi
  split
  · rfl
  · split <;> rfl

@[simp] theorem Failure.isRefusal_ofApi (what : String) (fault : ApiFault) :
    (ofApi what fault).isRefusal = true := by
  unfold ofApi
  split
  · rfl
  · split <;> rfl

namespace Report

variable {α β σ : Type} {P : Failure → Prop}

/-- If the work fails, its failure is of this kind. -/
def FailsOnlyBy (P : Failure → Prop) (report : Report α) : Prop :=
  ∀ failure, report.outcome = .error failure → P failure

theorem failsOnlyBy_pure (value : α) : FailsOnlyBy P (pure value) := by
  intro failure h
  cases h

theorem failsOnlyBy_note (notices : List Notice) : FailsOnlyBy P (note notices) := by
  intro failure h
  cases h

theorem failsOnlyBy_ofExcept {outcome : Except Failure α}
    (h : ∀ failure, outcome = .error failure → P failure) : FailsOnlyBy P (ofExcept outcome) := h

theorem FailsOnlyBy.bind {report : Report α} {next : α → Report β} (h : FailsOnlyBy P report)
    (hn : ∀ value, FailsOnlyBy P (next value)) : FailsOnlyBy P (report >>= next) := by
  intro failure ho
  rw [outcome_bind] at ho
  cases hr : report.outcome with
  | error other =>
    rw [hr] at ho
    cases ho
    exact h failure hr
  | ok value =>
    rw [hr] at ho
    exact hn value failure ho

theorem failsOnlyBy_foldlM {step : σ → β → Report σ}
    (h : ∀ state item, FailsOnlyBy P (step state item)) (items : List β) (start : σ) :
    FailsOnlyBy P (items.foldlM step start) := by
  induction items generalizing start with
  | nil => exact failsOnlyBy_pure start
  | cons item rest ih =>
    rw [List.foldlM_cons]
    exact (h start item).bind ih

theorem failsOnlyBy_mapM {work : β → Report α} (h : ∀ item, FailsOnlyBy P (work item))
    (items : List β) : FailsOnlyBy P (items.mapM work) := by
  induction items with
  | nil => exact failsOnlyBy_pure []
  | cons item rest ih =>
    rw [List.mapM_cons]
    exact (h item).bind fun first => ih.bind fun others => failsOnlyBy_pure _

end Report

open Report

theorem bind_ok {α β : Type} {work : Except Failure α} {next : α → Except Failure β} {b : β}
    (h : work >>= next = .ok b) : ∃ a, work = .ok a ∧ next a = .ok b := by
  cases work with
  | error failure => cases h
  | ok a => exact ⟨a, rfl, h⟩

theorem bind_error {α β : Type} {work : Except Failure α} {next : α → Except Failure β}
    {failure : Failure} (h : work >>= next = .error failure) :
    work = .error failure ∨ ∃ a, work = .ok a ∧ next a = .error failure := by
  cases work with
  | error other =>
    cases h
    exact .inl rfl
  | ok a => exact .inr ⟨a, rfl, h⟩

theorem Job.run_bind_error {α β : Type} {job : Job α} {next : α → Job β} {p q : Progress}
    {failure : Failure} (h : run (job >>= next) p = (.error failure, q)) :
    run job p = (.error failure, q) ∨
      ∃ a mid, run job p = (.ok a, mid) ∧ run (next a) mid = (.error failure, q) := by
  rw [run_bind] at h
  rcases hj : run job p with ⟨other | a, mid⟩
  · rw [hj] at h
    cases h
    exact .inl rfl
  · rw [hj] at h
    exact .inr ⟨a, mid, rfl, h⟩

theorem elements_error {tree : Tree} {failure : Failure} (h : tree.elements? = .error failure) :
    failure.isRefusal = false := by
  unfold Tree.elements? at h
  split at h <;> cases h
  rfl

theorem metadata_error {object : Tree} {failure : Failure}
    (h : Access.metadata object = .error failure) : failure.isRefusal = false := by
  unfold Access.metadata at h
  split at h
  · split at h <;> cases h
    rfl
  · cases h
    rfl

theorem resolveTree_error {modes : Tree} {operand : String} {failure : Failure}
    (h : Mode.resolveTree modes operand = .error failure) : failure.isRefusal = false := by
  unfold Mode.resolveTree at h
  split at h <;> cases h
  rfl

theorem treeIsIndependent_error {mode : Tree} {independent : List String} {failure : Failure}
    (h : Mode.treeIsIndependent mode independent = .error failure) : failure.isRefusal = false := by
  unfold Mode.treeIsIndependent at h
  split at h <;> cases h
  rfl

theorem resolveFor_error {modes : Keyed String} {operand : Tree} {failure : Failure}
    (h : Mode.resolveFor modes operand = .error failure) : failure.isRefusal = false := by
  unfold Mode.resolveFor at h
  split at h <;> cases h
  rfl

theorem copy_error {tree : Tree} {failure : Failure} (h : tree.copy = .error failure) :
    failure.isRefusal = false := by
  unfold Tree.copy at h
  split at h <;> cases h
  rfl

theorem copies_error {trees : List Tree} {failure : Failure}
    (h : trees.mapM Tree.copy = .error failure) : failure.isRefusal = false := by
  by_cases fits : ∀ tree ∈ trees, tree.depth ≤ Tree.maxCopied
  · rw [Tree.mapM_copy_of_le fits] at h
    cases h
  · rw [Tree.mapM_copy_of_lt fits] at h
    cases h
    rfl

theorem compare_error {a b : Tree} {failure : Failure} (h : a.compare b = .error failure) :
    failure.isRefusal = false := by
  unfold Tree.compare at h
  split at h <;> cases h
  rfl

theorem request_error {config : Tree} {independent : Bool} {failure : Failure}
    (h : Request.read config independent = .error failure) : failure.isRefusal = false := by
  by_cases copied : Request.Copied config
  · rw [Request.read_of_copied copied] at h
    cases h
  · rw [Request.read_of_deep copied] at h
    cases h
    rfl

theorem failsOnlyBy_applyConfigs (scope : Scope) (modes : Tree) (services configs : List Tree) :
    FailsOnlyBy (·.isRefusal = false) (applyConfigs scope modes services configs) := by
  refine failsOnlyBy_foldlM (fun services config => ?_) configs services
  unfold applyConfig
  split
  · dsimp only
    split
    · exact failsOnlyBy_pure services
    · refine (failsOnlyBy_ofExcept fun _ => resolveTree_error).bind fun mode => ?_
      refine (failsOnlyBy_ofExcept fun _ => treeIsIndependent_error).bind fun independent => ?_
      refine (failsOnlyBy_ofExcept fun _ => request_error).bind fun request => ?_
      exact (failsOnlyBy_note _).bind fun _ => failsOnlyBy_pure _
  · exact failsOnlyBy_pure services
  · exact (failsOnlyBy_note _).bind fun _ => failsOnlyBy_pure services

theorem templateFor_error {templates : Option Tree} {size : String} {failure : Failure}
    (h : Contribution.templateFor templates size = .error failure) : failure.isRefusal = false := by
  unfold Contribution.templateFor at h
  split at h <;> cases h
  rfl

theorem apply_error {services : List Tree} {template : Tree} {failure : Failure}
    (h : SizeTemplate.apply services template = .error failure) : failure.isRefusal = false := by
  rcases bind_error h with ht | ⟨parts, _, h⟩
  · exact elements_error ht
  · split at h <;> cases h
    rfl

theorem Contribution.failsOnlyBy_read (templates : Option Tree) (object : Tree) :
    FailsOnlyBy (·.isRefusal = false) (read templates object) := by
  cases map : object.isMap with
  | false =>
    intro failure h
    rw [read, if_neg (by simp [map])] at h
    cases h
    rfl
  | true =>
    by_cases copied : (outlineOf object).Copied
    · rw [read_of_copied map copied]
      refine (failsOnlyBy_note _).bind fun _ =>
        FailsOnlyBy.bind ?_ fun services => failsOnlyBy_pure _
      unfold sized
      split
      · exact failsOnlyBy_pure _
      · refine (failsOnlyBy_ofExcept fun _ => templateFor_error).bind fun template => ?_
        split
        · exact (failsOnlyBy_note _).bind fun _ => failsOnlyBy_pure _
        · refine (failsOnlyBy_ofExcept fun _ => copy_error).bind fun copy => ?_
          exact failsOnlyBy_ofExcept fun _ => apply_error
    · intro failure h
      rw [read_of_deep map copied] at h
      cases h
      rfl

theorem failsOnlyBy_foldService (scope : Scope) (modes : Keyed String) (owner : String)
    (summary : List Tree) (service : Tree) :
    FailsOnlyBy (·.isRefusal = false) (foldService scope modes owner summary service) := by
  unfold foldService
  refine (failsOnlyBy_ofExcept fun _ => resolveFor_error).bind fun mode failure h => ?_
  rw [Wish.outcome_fold] at h
  cases h

theorem failsOnlyBy_readDemand (scope : Scope) (templates : Option Tree) (tenants : List Tree) :
    FailsOnlyBy (·.isRefusal = false) (readDemand scope templates tenants) := by
  unfold readDemand
  refine (failsOnlyBy_mapM (Contribution.failsOnlyBy_read templates) tenants).bind
    fun contributions => FailsOnlyBy.bind ?_ fun summary => failsOnlyBy_pure _
  exact failsOnlyBy_foldlM (fun summary contribution =>
    failsOnlyBy_foldlM (failsOnlyBy_foldService scope _ _) _ summary) contributions []

/-- Whatever is wrong with a rules document, no call has been refused. -/
theorem RuleSet.read_error {text : String} {failure : Failure}
    (h : RuleSet.read text = .error failure) : failure.isRefusal = false := by
  unfold RuleSet.read at h
  split at h
  · rename_i fault _
    cases h
    cases fault <;> rfl
  · rename_i document _
    cases hd : RuleSet.ofDocument document.value document.tree with
    | error fault =>
      rw [hd] at h
      cases h
      rfl
    | ok rules =>
      rw [hd] at h
      cases h

namespace Reconciler

variable (r : Reconciler)

theorem demanded_error {rules : RuleSet} {tenants : Tree} {failure : Failure}
    (h : r.demanded rules tenants = .error failure) : failure.isRefusal = false := by
  rcases bind_error h with hl | ⟨items, _, h⟩
  · exact elements_error hl
  · exact failsOnlyBy_readDemand _ _ _ failure h

/-- The object that a reconcile finds, and its services. -/
def found (cluster : Cluster) : Except Failure (Tree × List Tree) :=
  match cluster.refusal (.get r.space r.configName) with
  | some fault => .error (.ofApi ("OperandConfig " ++ r.key) fault)
  | none =>
    match (cluster.config.getD .null).follow ["spec", "services"] with
    | .list held => do
      let copies ← held.mapM Tree.copy
      pure (cluster.config.getD .null, copies)
    | _ => .error (.malformedConfig r.key)

variable (prepare : Scope → List Tree → Report (List Tree)) (x : Extreme)

/-- What a reconcile has in hand when it lists the tenants: the object, its services, the rules, and
the prepared services. -/
def prepared (cluster : Cluster) : Except Failure (Tree × List Tree × RuleSet × List Tree) := do
  let (config, held) ← r.found cluster
  let rules ← RuleSet.read r.rules
  let services ← (prepare (r.scope rules) held).outcome
  pure (config, held, rules, services)

/-- The listed tenants' demand. -/
def requested (rules : RuleSet) (cluster : Cluster) : Except Failure Demand :=
  match cluster.refusal (.list Access.liveSelector) with
  | some fault => .error (.ofApi "CommonService list" fault)
  | none => r.demanded rules cluster.tenants

/-- What a reconcile has in hand when it comes to its write: the object, the services that are to be
written, and whether they are those that the object has. -/
def planned (cluster : Cluster) : Except Failure (Tree × List Tree × Bool) := do
  let (config, held, rules, services) ← r.prepared prepare cluster
  let demand ← r.requested rules cluster
  let services := applySummary (r.scope rules) demand.modes x demand.summary services
  let unchanged ← (Tree.list held).compare (.list services)
  pure (config, services, unchanged)

def written (config : Tree) (services : List Tree) (cluster : Cluster) : Except Failure Unit :=
  if r.dryRun then .ok ()
  else (Access.metadata (withServices config services)).bind fun fields =>
    match cluster.schedule.answer .replace with
    | some fault =>
      let key := Access.configKey (Access.metadataField fields "namespace").shown
        (Access.metadataField fields "name").shown
      .error (.ofApi ("OperandConfig " ++ key) fault)
    | none => .ok ()

def ending (cluster : Cluster) : Except Failure Bool := do
  let (config, services, unchanged) ← r.planned prepare x cluster
  r.written config services cluster
  pure unchanged

end Reconciler

/-- The same objects, where no call is going to be refused. -/
structure Becalmed (cluster calm : Cluster) : Prop where
  config : calm.config = cluster.config
  tenants : calm.tenants = cluster.tenants
  quiet : calm.schedule.Quiet

/-- The refusal of this call has led to the failure. -/
def BlamedOn (cluster : Cluster) (call : Call) (failure : Failure) : Prop :=
  ∃ fault what, cluster.refusal call = some fault ∧ failure = .ofApi what fault

/-- These calls have been made, and if a refusal has led to the failure, it is that of one of them.
-/
structure Blames (calls : List Call) (p : Progress) (failure : Failure) (q : Progress) : Prop where
  effects : q.effects = p.effects ++ calls.map .call
  blamed : failure.isRefusal = true → ∃ call ∈ calls, BlamedOn p.cluster call failure

theorem Blames.behind {before calls : List Call} {p mid q : Progress} {failure : Failure}
    (h : Blames calls mid failure q) (trail : Trail before p mid)
    (apart : ∀ call ∈ calls, call.method ∉ before.map Call.method) :
    Blames (before ++ calls) p failure q := by
  refine ⟨by rw [h.effects, trail.effects, List.map_append, List.append_assoc], fun hf => ?_⟩
  obtain ⟨call, hc, fault, what, refused, he⟩ := h.blamed hf
  refine ⟨call, by simp [hc], fault, what, ?_, he⟩
  rw [← trail.refusal (apart call hc), refused]

/-- Beside its own queue of answers, a call depends on what is stored. -/
theorem Cluster.refusal_get (cluster : Cluster) (space name : String) :
    cluster.refusal (.get space name) =
      match cluster.schedule.answer .get, cluster.config with
      | some fault, _ => some fault
      | none, none => some { status := some 404, reason := some "Not Found" }
      | none, some _ => none := by
  unfold Cluster.refusal
  simp only [Call.method, true_and]
  cases cluster.schedule.answer .get <;> cases cluster.config <;> rfl

theorem Cluster.refusal_list (cluster : Cluster) (selector : String) :
    cluster.refusal (.list selector) = cluster.schedule.answer .list := by
  simp [Cluster.refusal, Call.method]

namespace Reconciler

variable {r : Reconciler} {started : Notice} {prepare : Scope → List Tree → Report (List Tree)}
  {x : Extreme} {p q : Progress}

theorem run_fetch (r : Reconciler) (p : Progress) : (run r.fetch p).1 = r.found p.cluster := by
  unfold fetch found Access.getConfig
  rw [Cluster.refusal_get, bind_assoc, run_bind, run_request]
  simp only [Call.method]
  cases p.cluster.schedule.answer .get with
  | some fault => rfl
  | none =>
    dsimp only
    rw [bind_assoc, run_bind_of_ok (run_get _)]
    cases hc : p.cluster.config with
    | none => rfl
    | some config =>
      simp only [pure_bind, Option.getD_some]
      cases config.follow ["spec", "services"] with
      | list held =>
        dsimp only
        rw [run_bind, run_ofReport, Report.outcome_ofExcept]
        cases held.mapM Tree.copy <;> rfl
      | scalar value => rfl
      | map entries => rfl

theorem run_opened (r : Reconciler) (started : Notice)
    (prepare : Scope → List Tree → Report (List Tree)) (p : Progress) :
    (run (r.opened started prepare) p).1 = r.prepared prepare p.cluster := by
  unfold opened prepared
  rw [run_bind]
  have hf := r.run_fetch p
  rcases hr : run r.fetch p with ⟨outcome, mid⟩
  rw [hr] at hf
  rw [← hf]
  cases outcome with
  | error failure => rfl
  | ok found =>
    dsimp only
    rw [loadRules, run_bind, run_ofReport]
    show _ = (RuleSet.read r.rules).bind _
    cases RuleSet.read r.rules with
    | error failure => rfl
    | ok rules =>
      simp only [Report.outcome_ofExcept, Except.bind]
      rw [run_bind_of_ok (run_note _ _), run_bind, run_ofReport]
      cases (prepare (r.scope rules) found.2).outcome <;> rfl

theorem run_aggregate_outcome (r : Reconciler) (services : List Tree) (rules : RuleSet)
    (x : Extreme) (p : Progress) :
    (run (r.aggregate services rules x) p).1 = (r.requested rules p.cluster).map fun demand =>
      applySummary (r.scope rules) demand.modes x demand.summary services := by
  rw [r.run_aggregate, requested, Cluster.refusal_list]
  cases p.cluster.schedule.answer .list <;> rfl

theorem run_leveled_outcome (r : Reconciler) (started : Notice)
    (prepare : Scope → List Tree → Report (List Tree)) (x : Extreme) (p : Progress) :
    (run (r.leveled started prepare x) p).1 = r.planned prepare x p.cluster := by
  unfold leveled planned
  rw [run_bind]
  have ho := r.run_opened started prepare p
  rcases hr : run (r.opened started prepare) p with ⟨outcome, mid⟩
  rw [hr] at ho
  rw [← ho]
  cases outcome with
  | error failure => rfl
  | ok found =>
    obtain ⟨config, held, rules, services⟩ := found
    have trail := ((r.makes_opened started prepare) _ _ _ hr).trail
    have listed : mid.cluster.schedule.answer .list = p.cluster.schedule.answer .list :=
      trail.answer .list (by simp [Call.method])
    have tenants : mid.cluster.tenants = p.cluster.tenants := by
      have reads : Reads (r.opened started prepare) :=
        r.reads_fetch.bind fun _ => r.reads_loadRules.bind fun _ => (reads_note _).bind fun _ =>
          (reads_ofReport _).bind fun _ => reads_pure _
      exact (reads.of_run hr).tenants
    have ha := r.run_aggregate_outcome services rules x mid
    have same : r.requested rules mid.cluster = r.requested rules p.cluster := by
      rw [requested, requested, Cluster.refusal_list, Cluster.refusal_list, listed, tenants]
    rw [same] at ha
    show (run (r.aggregate services rules x >>= _) mid).1 = (r.requested rules p.cluster).bind _
    rw [run_bind]
    rcases hg : run (r.aggregate services rules x) mid with ⟨grown, last⟩
    rw [hg] at ha
    rw [show grown = _ from ha]
    cases r.requested rules p.cluster with
    | error failure => rfl
    | ok demand =>
      show (run (ofReport _ >>= _) last).1 = (Tree.compare _ _).bind _
      rw [run_bind, run_ofReport, Report.outcome_ofExcept]
      cases (Tree.list held).compare _ <;> rfl

theorem run_write_outcome (r : Reconciler) (config : Tree) (services : List Tree) (unchanged : Bool)
    (p : Progress) :
    (run (r.write config services unchanged) p).1 = r.written config services p.cluster := by
  unfold write written
  split
  · rfl
  · rw [run_bind, run_replaceConfig]
    cases Access.metadata (withServices config services) with
    | error failure => rfl
    | ok fields =>
      simp only [Except.bind]
      cases p.cluster.schedule.answer .replace with
      | some fault => rfl
      | none =>
        dsimp only
        split <;> rfl

/-- The outcome of a reconcile, as a function of the cluster. -/
theorem run_reconcile (r : Reconciler) (started : Notice)
    (prepare : Scope → List Tree → Report (List Tree)) (x : Extreme) (p : Progress) :
    (run (r.reconcile started prepare x) p).1 = r.ending prepare x p.cluster := by
  rw [reconcile_eq, run_bind]
  unfold ending
  have hl := r.run_leveled_outcome started prepare x p
  rcases hr : run (r.leveled started prepare x) p with ⟨outcome, mid⟩
  rw [hr] at hl
  rw [← hl]
  cases outcome with
  | error failure => rfl
  | ok plan =>
    obtain ⟨config, services, unchanged⟩ := plan
    rcases run_leveled hr with ⟨failure, _, he, _⟩ | ⟨_, _, _, trail⟩
    · cases he
    · have answer : mid.cluster.schedule.answer .replace = p.cluster.schedule.answer .replace :=
        trail.answer .replace (by simp [Call.method])
      have hw := r.run_write_outcome config services unchanged mid
      have same : r.written config services mid.cluster = r.written config services p.cluster := by
        unfold written
        rw [answer]
      show (run (r.write _ _ _ >>= _) mid).1 = (r.written config services p.cluster).bind _
      rw [run_bind, ← same, ← hw]
      rcases run (r.write config services unchanged) mid with ⟨_ | _, _⟩ <;> rfl

/-- The services are prepared without any call, so where that fails no call has been refused. -/
def Sound (prepare : Scope → List Tree → Report (List Tree)) : Prop :=
  ∀ scope services, FailsOnlyBy (·.isRefusal = false) (prepare scope services)

theorem exists_sound {job : Job Bool}
    (hj : job = r.shrink ∨ ∃ configs modes, job = r.update configs modes) :
    ∃ started prepare x, Sound prepare ∧ job = r.reconcile started prepare x := by
  rcases hj with rfl | ⟨configs, modes, rfl⟩
  · exact ⟨_, _, _, fun _ services => failsOnlyBy_pure services, rfl⟩
  · exact ⟨_, _, _, fun scope services =>
      failsOnlyBy_applyConfigs scope modes services configs, rfl⟩

theorem found_error {cluster : Cluster} {failure : Failure}
    (h : r.found cluster = .error failure) (hf : failure.isRefusal = true) :
    BlamedOn cluster (.get r.space r.configName) failure := by
  unfold found at h
  split at h
  · rename_i fault ha
    cases h
    exact ⟨fault, _, ha, rfl⟩
  · split at h
    · rcases bind_error h with hc | ⟨copies, _, h⟩
      · rw [copies_error hc] at hf
        cases hf
      · cases h
    · cases h
      cases hf

theorem prepared_error (sound : Sound prepare) {cluster : Cluster} {failure : Failure}
    (h : r.prepared prepare cluster = .error failure) (hf : failure.isRefusal = true) :
    BlamedOn cluster (.get r.space r.configName) failure := by
  rcases bind_error h with ho | ⟨found, _, h⟩
  · exact found_error ho hf
  rcases bind_error h with hr | ⟨rules, _, h⟩
  · rw [RuleSet.read_error hr] at hf
    cases hf
  rcases bind_error h with hp | ⟨services, _, h⟩
  · rw [sound _ _ _ hp] at hf
    cases hf
  · cases h

theorem requested_error {rules : RuleSet} {cluster : Cluster} {failure : Failure}
    (h : r.requested rules cluster = .error failure) (hf : failure.isRefusal = true) :
    BlamedOn cluster (.list Access.liveSelector) failure := by
  unfold requested at h
  split at h
  · rename_i fault ha
    cases h
    exact ⟨fault, _, ha, rfl⟩
  · rw [r.demanded_error h] at hf
    cases hf

theorem blames_opened (sound : Sound prepare) {failure : Failure}
    (h : run (r.opened started prepare) p = (.error failure, q)) :
    Blames [.get r.space r.configName] p failure q := by
  refine ⟨(r.makes_opened started prepare _ _ _ h).trail.effects, fun hf =>
    ⟨_, List.mem_singleton_self _, ?_⟩⟩
  have ho := r.run_opened started prepare p
  rw [h] at ho
  exact prepared_error sound ho.symm hf

theorem blames_aggregate {services : List Tree} {rules : RuleSet} {failure : Failure}
    (h : run (r.aggregate services rules x) p = (.error failure, q)) :
    Blames [.list Access.liveSelector] p failure q := by
  refine ⟨(r.makes_aggregate _ _ _ _ _ _ h).trail.effects, fun hf =>
    ⟨_, List.mem_singleton_self _, ?_⟩⟩
  have ha := r.run_aggregate_outcome services rules x p
  rw [h] at ha
  cases hd : r.requested rules p.cluster with
  | error other =>
    rw [hd] at ha
    cases ha
    exact requested_error hd hf
  | ok demand =>
    rw [hd] at ha
    cases ha

theorem blames_compare {a b : Tree} {failure : Failure}
    (h : run (ofReport (.ofExcept (a.compare b))) p = (.error failure, q)) :
    Blames [] p failure q := by
  refine ⟨((silent_ofReport _).of_run h).effects, fun hf => ?_⟩
  have compared := congrArg Prod.fst h
  rw [run_ofReport] at compared
  rw [compare_error compared] at hf
  cases hf

theorem blames_write {config : Tree} {services : List Tree} {unchanged : Bool} {failure : Failure}
    (h : run (r.write config services unchanged) p = (.error failure, q)) :
    ∃ calls, (∀ call ∈ calls, call.method = .replace) ∧ Blames calls p failure q := by
  unfold write at h
  split at h
  · cases h
  · rw [run_bind, run_replaceConfig] at h
    cases hm : Access.metadata (withServices config services) with
    | error other =>
      rw [hm] at h
      cases h
      refine ⟨[], by simp, by simp, fun hf => ?_⟩
      rw [metadata_error hm] at hf
      cases hf
    | ok fields =>
      rw [hm] at h
      dsimp only at h
      cases ha : p.cluster.schedule.answer .replace with
      | some fault =>
        rw [ha] at h
        cases h
        refine ⟨[.replace _ _], by simp [Call.method], rfl, fun _ =>
          ⟨_, List.mem_singleton_self _, fault, _, ?_, rfl⟩⟩
        simp [Cluster.refusal, Call.method, ha]
      | none =>
        rw [ha] at h
        dsimp only at h
        split at h <;> cases h

/-- If a refused call has led to the failure of a reconcile, it is one that the reconcile has made.
-/
theorem blames_reconcile (sound : Sound prepare) {failure : Failure}
    (h : run (r.reconcile started prepare x) p = (.error failure, q)) :
    ∃ calls, Blames calls p failure q := by
  rw [reconcile_eq, leveled, bind_assoc] at h
  rcases run_bind_error h with hr | ⟨⟨config, held, rules, prepared⟩, mid, hr, h⟩
  · exact ⟨_, blames_opened sound hr⟩
  have opening := (r.makes_opened started prepare _ _ _ hr).trail
  dsimp only at h
  rw [bind_assoc] at h
  rcases run_bind_error h with ha | ⟨services, late, ha, h⟩
  · exact ⟨_, (blames_aggregate ha).behind opening (by simp [Call.method])⟩
  have listing := (r.makes_aggregate _ _ _ _ _ _ ha).trail
  rw [bind_assoc] at h
  rcases run_bind_error h with hc | ⟨same, compared, hc, h⟩
  · exact ⟨_, (blames_compare hc).behind (opening.trans listing) (by simp)⟩
  have reading := (opening.trans listing).trans ((silent_ofReport _).of_run hc)
  rw [pure_bind] at h
  rcases run_bind_error h with hw | ⟨_, last, _, h⟩
  · obtain ⟨calls, writes, blames⟩ := blames_write hw
    refine ⟨_, blames.behind reading fun call hc => ?_⟩
    rw [writes call hc]
    simp [Call.method]
  · cases h

section Calm

variable {cluster calm : Cluster}

theorem found_calm (h : Becalmed cluster calm)
    (hf : ∀ failure, r.found cluster = .error failure → failure.isRefusal = false) :
    r.found cluster = r.found calm := by
  unfold found at hf ⊢
  cases hr : cluster.refusal (.get r.space r.configName) with
  | some fault =>
    rw [hr] at hf
    exact absurd (hf _ rfl) (by simp)
  | none =>
    have accepted : calm.refusal (.get r.space r.configName) = none := by
      rw [Cluster.refusal_get] at hr ⊢
      rw [h.quiet.answer .get, h.config]
      cases ha : cluster.schedule.answer .get <;> cases hc : cluster.config <;> simp_all
    rw [accepted, h.config]

theorem prepared_calm (h : Becalmed cluster calm)
    (hf : ∀ failure, r.prepared prepare cluster = .error failure → failure.isRefusal = false) :
    r.prepared prepare cluster = r.prepared prepare calm := by
  have found : r.found cluster = r.found calm :=
    found_calm h fun failure ho => hf failure (by rw [prepared, ho]; rfl)
  rw [prepared, prepared, found]

theorem requested_calm (h : Becalmed cluster calm) {rules : RuleSet}
    (hf : ∀ failure, r.requested rules cluster = .error failure → failure.isRefusal = false) :
    r.requested rules cluster = r.requested rules calm := by
  unfold requested at hf ⊢
  rw [Cluster.refusal_list] at hf ⊢
  rw [Cluster.refusal_list, h.quiet.answer .list, h.tenants]
  cases ha : cluster.schedule.answer .list with
  | some fault =>
    rw [ha] at hf
    exact absurd (hf _ rfl) (by simp)
  | none => rfl

theorem planned_calm (h : Becalmed cluster calm)
    (hf : ∀ failure, r.planned prepare x cluster = .error failure → failure.isRefusal = false) :
    r.planned prepare x cluster = r.planned prepare x calm := by
  have prepared : r.prepared prepare cluster = r.prepared prepare calm :=
    prepared_calm h fun failure ho => hf failure (by rw [planned, ho]; rfl)
  unfold planned at hf ⊢
  rw [← prepared]
  cases hp : r.prepared prepare cluster with
  | error failure => rfl
  | ok found =>
    rw [hp] at hf
    have requested : r.requested found.2.2.1 cluster = r.requested found.2.2.1 calm :=
      requested_calm h fun failure ho => hf failure (by
        show (r.requested found.2.2.1 cluster).bind _ = _
        rw [ho]
        rfl)
    show (r.requested found.2.2.1 cluster).bind _ = (r.requested found.2.2.1 calm).bind _
    rw [requested]

theorem written_calm (h : Becalmed cluster calm) {config : Tree} {services : List Tree}
    (hf : ∀ failure, r.written config services cluster = .error failure →
      failure.isRefusal = false) :
    r.written config services cluster = r.written config services calm := by
  unfold written at hf ⊢
  split
  · rfl
  · rename_i wet
    rw [if_neg wet] at hf
    cases hm : Access.metadata (withServices config services) with
    | error failure => rfl
    | ok fields =>
      rw [hm] at hf
      simp only [Except.bind] at hf ⊢
      rw [h.quiet.answer .replace]
      cases ha : cluster.schedule.answer .replace with
      | some fault =>
        rw [ha] at hf
        exact absurd (hf _ rfl) (by simp)
      | none => rfl

/-- A reconcile that does not fail for a refusal ends as it would have if none had been due. -/
theorem ending_calm (h : Becalmed cluster calm)
    (hf : ∀ failure, r.ending prepare x cluster = .error failure → failure.isRefusal = false) :
    r.ending prepare x cluster = r.ending prepare x calm := by
  have planned : r.planned prepare x cluster = r.planned prepare x calm :=
    planned_calm h fun failure ho => hf failure (by rw [ending, ho]; rfl)
  unfold ending at hf ⊢
  rw [← planned]
  cases hp : r.planned prepare x cluster with
  | error failure => rfl
  | ok plan =>
    rw [hp] at hf
    have written : r.written plan.1 plan.2.1 cluster = r.written plan.1 plan.2.1 calm :=
      written_calm h fun failure ho => hf failure (by
        show (r.written plan.1 plan.2.1 cluster).bind _ = _
        rw [ho]
        rfl)
    show (r.written plan.1 plan.2.1 cluster).bind _ = (r.written plan.1 plan.2.1 calm).bind _
    rw [written]

end Calm

theorem stored_of_planned {cluster : Cluster} {config : Tree} {services : List Tree}
    {unchanged : Bool} (h : r.planned prepare x cluster = .ok (config, services, unchanged)) :
    cluster.config = some config ∧ ∃ held, config.follow ["spec", "services"] = .list held := by
  obtain ⟨⟨config, held, rules, prepared⟩, hp, h⟩ := bind_ok h
  obtain ⟨demand, _, h⟩ := bind_ok h
  obtain ⟨same, _, h⟩ := bind_ok h
  cases h
  obtain ⟨⟨config, held⟩, hf, hp⟩ := bind_ok hp
  obtain ⟨rules, _, hp⟩ := bind_ok hp
  obtain ⟨prepared, _, hp⟩ := bind_ok hp
  cases hp
  unfold found at hf
  rw [Cluster.refusal_get] at hf
  cases hc : cluster.config with
  | none =>
    rw [hc] at hf
    cases ha : cluster.schedule.answer .get <;> rw [ha] at hf <;> cases hf
  | some stored =>
    rw [hc] at hf
    cases ha : cluster.schedule.answer .get with
    | some fault =>
      rw [ha] at hf
      cases hf
    | none =>
      rw [ha] at hf
      dsimp only [Option.getD_some] at hf
      split at hf
      · rename_i listed
        obtain ⟨copies, _, hf⟩ := bind_ok hf
        cases hf
        exact ⟨rfl, _, listed⟩
      · cases hf

/-- What a reconcile that ends well has planned and stored. -/
theorem stored_of_reconcile {unchanged : Bool}
    (h : run (r.reconcile started prepare x) p = (.ok unchanged, q)) :
    ∃ config services, r.planned prepare x p.cluster = .ok (config, services, unchanged) ∧
      q.cluster.config =
        if r.dryRun then p.cluster.config else some (withServices config services) := by
  rw [reconcile_eq] at h
  obtain ⟨⟨config, services, same⟩, mid, hl, h⟩ := run_bind_ok h
  obtain ⟨_, last, hw, h⟩ := run_bind_ok h
  have plan := r.run_leveled_outcome started prepare x p
  rw [hl] at plan
  have shallow : (Tree.list services).depth ≤ Tree.maxCompared := by
    obtain ⟨_, _, found⟩ := bind_ok plan.symm
    obtain ⟨_, _, found⟩ := bind_ok found
    obtain ⟨_, compared, found⟩ := bind_ok found
    cases found
    exact (Tree.compare_eq_ok compared).1.2
  have stores := (r.run_write_ok shallow hw).written
  rcases run_leveled hl with ⟨failure, _, he, _⟩ | ⟨_, _, _, trail⟩
  · cases he
  · cases h
    exact ⟨config, services, plan.symm, trail.config ▸ stores⟩

/-- Without a refusal a reconcile ends and stores just as it would have on a calm cluster. -/
theorem reconcile_calm {calm : Progress} {outcome : Except Failure Bool}
    (h : Becalmed p.cluster calm.cluster)
    (ran : run (r.reconcile started prepare x) p = (outcome, q))
    (hf : ∀ failure, outcome = .error failure → failure.isRefusal = false) :
    (run (r.reconcile started prepare x) calm).1 = outcome ∧
      (run (r.reconcile started prepare x) calm).2.cluster.config = q.cluster.config := by
  have ended := r.run_reconcile started prepare x p
  rw [ran] at ended
  have same : (run (r.reconcile started prepare x) calm).1 = outcome := by
    rw [run_reconcile, ← ending_calm h (ended ▸ hf), ← ended]
  have later := run_of_outcome same
  refine ⟨same, ?_⟩
  cases outcome with
  | error failure =>
    rw [(atomic_reconcile _ _ _ ran).config, (atomic_reconcile _ _ _ later).config, h.config]
  | ok unchanged =>
    obtain ⟨config, services, plan, stored⟩ := stored_of_reconcile ran
    obtain ⟨config', services', plan', stored'⟩ := stored_of_reconcile later
    rw [← planned_calm h (by simp [plan]), plan] at plan'
    cases plan'
    rw [stored, stored', h.config]

end Reconciler

end TenantSizing
