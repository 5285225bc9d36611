import TenantSizing.Proofs.Trees
import TenantSizing.Reconcile

namespace TenantSizing

namespace Schedule

variable {schedule : Schedule}

/-- No call is going to be refused. -/
def Quiet (schedule : Schedule) : Prop :=
  ∀ method, ∀ answer ∈ schedule.queue method, answer = none

theorem Quiet.answer (h : schedule.Quiet) (method : Method) : schedule.answer method = none := by
  have hq := h method
  rw [Schedule.answer]
  cases hl : schedule.queue method with
  | nil => rfl
  | cons first rest =>
    rw [hl] at hq
    simp [hq first (by simp)]

theorem Quiet.after (h : schedule.Quiet) (method : Method) : (schedule.after method).Quiet := by
  intro other answer ha
  have ho := h other
  have hm := h method
  cases method <;> cases other <;>
    first
    | exact ho answer ha
    | exact hm answer (List.mem_of_mem_tail ha)

end Schedule

/-- The OperandConfig and the tenants are as before, and if no call was going to be refused, none
is. -/
structure Stays (before after : Progress) : Prop where
  config : after.cluster.config = before.cluster.config
  tenants : after.cluster.tenants = before.cluster.tenants
  quiet : before.cluster.schedule.Quiet → after.cluster.schedule.Quiet

namespace Stays

variable {p q : Progress}

theorem refl (p : Progress) : Stays p p := ⟨rfl, rfl, id⟩

theorem trans {s : Progress} (h : Stays p q) (hs : Stays q s) : Stays p s :=
  ⟨hs.config.trans h.config, hs.tenants.trans h.tenants, fun hq => hs.quiet (h.quiet hq)⟩

end Stays

namespace Job

variable {α β : Type} {job : Job α} {next : α → Job β} {p q : Progress}

theorem run_bind_ok {b : β} (h : run (job >>= next) p = (.ok b, q)) :
    ∃ a mid, run job p = (.ok a, mid) ∧ run (next a) mid = (.ok b, q) := by
  rw [run_bind] at h
  rcases hj : run job p with ⟨_ | a, mid⟩
  · rw [hj] at h
    cases h
  · rw [hj] at h
    exact ⟨a, mid, rfl, h⟩

theorem run_bind_of_ok {a : α} {mid : Progress} (h : run job p = (.ok a, mid)) :
    run (job >>= next) p = run (next a) mid := by
  rw [run_bind, h]

theorem run_of_outcome {outcome : Except Failure α} (h : (run job p).1 = outcome) :
    run job p = (outcome, (run job p).2) := by
  rw [← h]

@[simp] theorem run_ofReport (report : Report α) (p : Progress) :
    run (ofReport report) p =
      (report.outcome, { p with notices := p.notices ++ report.notices }) := by
  unfold ofReport
  cases report.outcome <;> rfl

@[simp] theorem run_request (call : Call) (p : Progress) :
    run (request call) p = (.ok (p.cluster.schedule.answer call.method),
      { p with
        effects := p.effects ++ [.call call]
        cluster := { p.cluster with schedule := p.cluster.schedule.after call.method } }) :=
  rfl

@[simp] theorem run_get (p : Progress) : run (get : Job Progress) p = (.ok p, p) := rfl

/-- The job neither writes the OperandConfig nor touches the tenants. -/
def Reads (job : Job α) : Prop :=
  ∀ p, Stays p (run job p).2

theorem Reads.of_run (h : Reads job) {outcome : Except Failure α} (hr : run job p = (outcome, q)) :
    Stays p q := by
  have := h p
  rwa [hr] at this

theorem Reads.bind (hj : Reads job) (hn : ∀ a, Reads (next a)) : Reads (job >>= next) := by
  intro p
  rw [run_bind]
  rcases hr : run job p with ⟨_ | a, mid⟩
  · exact hj.of_run hr
  · exact (hj.of_run hr).trans (hn a mid)

/-- The job leaves the OperandConfig and the tenants as they were unless it ends well. -/
def Atomic (job : Job α) : Prop :=
  ∀ p failure q, run job p = (.error failure, q) → Stays p q

theorem Reads.atomic_bind (hj : Reads job) (hn : ∀ a, Atomic (next a)) :
    Atomic (job >>= next) := by
  intro p failure q h
  rw [run_bind] at h
  rcases hr : run job p with ⟨_ | a, mid⟩
  · rw [hr] at h
    cases h
    exact hj.of_run hr
  · rw [hr] at h
    exact (hj.of_run hr).trans (hn a mid failure q h)

theorem reads_pure (value : α) : Reads (pure value : Job α) := fun p => .refl p

theorem reads_fail (failure : Failure) : Reads (fail failure : Job α) := fun p => .refl p

theorem reads_note (notice : Notice) : Reads (note notice) := fun _ => ⟨rfl, rfl, id⟩

theorem reads_get : Reads (get : Job Progress) := fun p => .refl p

theorem reads_ofReport (report : Report α) : Reads (ofReport report) := by
  intro p
  rw [run_ofReport]
  exact ⟨rfl, rfl, id⟩

theorem reads_request (call : Call) : Reads (request call) := fun _ =>
  ⟨rfl, rfl, fun hq => hq.after call.method⟩

end Job

namespace Access

open Job

theorem reads_getConfig (space name : String) : Reads (getConfig space name) := by
  unfold getConfig
  refine (reads_request _).bind fun answer => ?_
  have refuse : ∀ fault, Reads (do
      note (.getFailed (configKey space name) fault)
      fail (.ofApi ("OperandConfig " ++ configKey space name) fault) : Job Tree) := fun fault =>
    (reads_note _).bind fun _ => reads_fail _
  cases answer with
  | some fault => exact refuse fault
  | none =>
    refine reads_get.bind fun progress => ?_
    cases progress.cluster.config with
    | some config => exact reads_pure config
    | none => exact refuse _

theorem run_getConfig_ok {space name : String} {p q : Progress} {config : Tree}
    (h : run (getConfig space name) p = (.ok config, q)) : p.cluster.config = some config := by
  unfold getConfig at h
  obtain ⟨answer, mid, hr, h⟩ := run_bind_ok h
  cases hr
  split at h
  · cases h
  · obtain ⟨progress, _, hg, h⟩ := run_bind_ok h
    cases hg
    dsimp only at h
    split at h
    · rename_i hc
      cases h
      exact hc
    · cases h

theorem reads_listTenants : Reads listTenants := by
  unfold listTenants
  refine (reads_request _).bind fun answer => ?_
  cases answer with
  | some fault => exact (reads_note _).bind fun _ => reads_fail _
  | none => exact reads_get.bind fun _ => reads_pure _

theorem run_listTenants (p : Progress) :
    (run listTenants p).1 =
      match p.cluster.schedule.answer .list with
      | some fault => .error (.ofApi "CommonService list" fault)
      | none => .ok (if p.cluster.tenants.isNull then .list [] else p.cluster.tenants) := by
  unfold listTenants
  rw [run_bind, run_request]
  simp only [Call.method]
  cases p.cluster.schedule.answer .list <;> rfl

end Access

def listedTenants (tenants : Tree) : Except Failure (List Tree) :=
  (if tenants.isNull then .list [] else tenants : Tree).elements?

namespace Reconciler

open Job

variable (r : Reconciler)

/-- What the live ones among listed tenants ask for together. -/
def demanded (rules : RuleSet) (tenants : Tree) : Except Failure Demand :=
  (listedTenants tenants).bind fun items =>
    (readDemand (r.scope rules) r.templates (Tenant.live items)).outcome

theorem run_demand (rules : RuleSet) (p : Progress) :
    (run (r.demand rules) p).1 =
      match p.cluster.schedule.answer .list with
      | some fault => .error (.ofApi "CommonService list" fault)
      | none => r.demanded rules p.cluster.tenants := by
  have hl := Access.run_listTenants p
  unfold demand liveTenants demanded listedTenants
  rw [bind_assoc, run_bind]
  cases ha : p.cluster.schedule.answer .list with
  | some fault =>
    rw [ha] at hl
    rcases hr : run Access.listTenants p with ⟨outcome, mid⟩
    rw [hr] at hl
    rw [show outcome = _ from hl]
  | none =>
    rw [ha] at hl
    rcases hr : run Access.listTenants p with ⟨outcome, mid⟩
    rw [hr] at hl
    rw [show outcome = _ from hl]
    dsimp only
    rw [bind_assoc, run_bind, run_ofReport]
    cases (if p.cluster.tenants.isNull then .list [] else p.cluster.tenants : Tree).elements? with
    | error failure => rfl
    | ok items =>
      simp only [Report.outcome_ofExcept, pure_bind, run_ofReport]
      rfl

theorem reads_demand (rules : RuleSet) : Reads (r.demand rules) := by
  unfold demand liveTenants
  refine Reads.bind (Access.reads_listTenants.bind fun tenants => ?_) fun tenants =>
    reads_ofReport _
  exact (reads_ofReport _).bind fun items => reads_pure _

theorem run_aggregate (services : List Tree) (rules : RuleSet) (x : Extreme) (p : Progress) :
    (run (r.aggregate services rules x) p).1 =
      match p.cluster.schedule.answer .list with
      | some fault => .error (.ofApi "CommonService list" fault)
      | none => (r.demanded rules p.cluster.tenants).map fun demand =>
        applySummary (r.scope rules) demand.modes x demand.summary services := by
  have hd := r.run_demand rules p
  unfold aggregate
  rw [run_bind]
  rcases hr : run (r.demand rules) p with ⟨outcome, mid⟩
  rw [hr] at hd
  rw [show outcome = _ from hd]
  cases p.cluster.schedule.answer .list with
  | some fault => rfl
  | none =>
    cases r.demanded rules p.cluster.tenants with
    | error failure => rfl
    | ok demand => simp [meetDemand, Except.map, Except.bind]

variable {r} in
/-- An aggregation that ends well has read a demand, and by it every other one ends well. -/
theorem run_aggregate_ok {rules : RuleSet} {services grown : List Tree} {x : Extreme} {p : Progress}
    (h : (run (r.aggregate services rules x) p).1 = .ok grown) :
    ∃ demand, r.demanded rules p.cluster.tenants = .ok demand ∧
      grown = applySummary (r.scope rules) demand.modes x demand.summary services ∧
      ∀ other y, (run (r.aggregate other rules y) p).1 =
        .ok (applySummary (r.scope rules) demand.modes y demand.summary other) := by
  rw [run_aggregate] at h
  cases hs : p.cluster.schedule.answer .list with
  | some fault =>
    rw [hs] at h
    cases h
  | none =>
    rw [hs] at h
    cases hd : r.demanded rules p.cluster.tenants with
    | error failure =>
      rw [hd] at h
      cases h
    | ok demand =>
      rw [hd] at h
      refine ⟨demand, rfl, (Except.ok.inj h).symm, fun other y => ?_⟩
      rw [run_aggregate, hs, hd]
      rfl

theorem reads_aggregate (services : List Tree) (rules : RuleSet) (x : Extreme) :
    Reads (r.aggregate services rules x) :=
  (r.reads_demand rules).bind fun _ => reads_ofReport _

theorem reads_fetch : Reads r.fetch := by
  unfold fetch
  refine (Access.reads_getConfig _ _).bind fun config => ?_
  split
  · exact (reads_ofReport _).bind fun copies => reads_pure _
  · exact reads_fail _

theorem run_fetch_ok {p q : Progress} {config : Tree} {held : List Tree}
    (h : run r.fetch p = (.ok (config, held), q)) :
    p.cluster.config = some config ∧ config.follow ["spec", "services"] = .list held := by
  unfold fetch at h
  obtain ⟨found, mid, hg, h⟩ := run_bind_ok h
  have hc := Access.run_getConfig_ok hg
  split at h
  · rename_i services hs
    obtain ⟨copies, last, hr, h⟩ := run_bind_ok h
    rw [run_ofReport, Report.outcome_ofExcept] at hr
    rw [Tree.mapM_copy_eq_ok (congrArg Prod.fst hr)] at h
    cases h
    exact ⟨hc, hs⟩
  · cases h

theorem reads_loadRules : Reads r.loadRules :=
  reads_ofReport _

end Reconciler

section Stored

variable {config : Tree} {held services : List Tree}

theorem withServices_eq (services : List Tree)
    (h : config.follow ["spec", "services"] = .list held) :
    ∃ entries spec, config = .map entries ∧ entries.lookup "spec" = some (.map spec) ∧
      spec.lookup "services" = some (.list held) ∧
      Reconciler.withServices config services =
        .map (Keyed.insert entries "spec"
          (.map (Keyed.insert spec "services" (.list services)))) := by
  rw [Tree.follow_cons, Tree.follow_cons, Tree.follow_nil] at h
  cases config with
  | scalar value => cases h
  | list items => cases h
  | map entries =>
    rw [Tree.get_map] at h
    cases hs : entries.lookup "spec" with
    | none =>
      rw [hs] at h
      cases h
    | some spec =>
      rw [hs] at h
      cases spec with
      | scalar value => cases h
      | list items => cases h
      | map spec =>
        simp only [Option.getD_some, Tree.get_map] at h
        cases hl : spec.lookup "services" with
        | none =>
          rw [hl] at h
          cases h
        | some found =>
          rw [hl] at h
          refine ⟨entries, spec, rfl, hs, hl.trans (congrArg some h), ?_⟩
          simp [Reconciler.withServices, Tree.updateMap, hs]

/-- The services that are written are the ones that the next reconcile reads. -/
theorem follow_withServices (h : config.follow ["spec", "services"] = .list held) :
    (Reconciler.withServices config services).follow ["spec", "services"] = .list services := by
  obtain ⟨entries, spec, _, _, _, he⟩ := withServices_eq services h
  rw [he]
  simp [Tree.get_insert]

theorem metadata_withServices (h : config.follow ["spec", "services"] = .list held) :
    Access.metadata (Reconciler.withServices config services) = Access.metadata config := by
  obtain ⟨entries, spec, hc, _, _, he⟩ := withServices_eq services h
  rw [he, hc, Access.metadata, Access.metadata, Keyed.lookup_insert, if_neg (by decide)]

end Stored

/-- What one reconcile reads of a cluster, if it can go down to the bottom of it. -/
structure Reading (r : Reconciler) (cluster : Cluster) where
  config : Tree
  held : List Tree
  rules : RuleSet
  demand : Demand
  stored : cluster.config = some config
  listed : config.follow ["spec", "services"] = .list held
  parsed : RuleSet.read r.rules = .ok rules
  demanded : r.demanded rules cluster.tenants = .ok demand
  shallow : (Tree.list held).depth ≤ Tree.maxCompared

/-- A cluster can be read in one way only. -/
theorem Reading.unique {r : Reconciler} {cluster : Cluster} (a b : Reading r cluster) : a = b := by
  obtain ⟨config, held, rules, demand, stored, listed, parsed, demanded, _⟩ := a
  obtain ⟨_, _, _, _, stored', listed', parsed', demanded', _⟩ := b
  obtain rfl := Option.some.inj (stored.symm.trans stored')
  obtain rfl := Tree.list.inj (listed.symm.trans listed')
  obtain rfl := Except.ok.inj (parsed.symm.trans parsed')
  obtain rfl := Except.ok.inj (demanded.symm.trans demanded')
  rfl

def Reading.level {r : Reconciler} {cluster : Cluster} (reading : Reading r cluster) (x : Extreme)
    (services : List Tree) : List Tree :=
  applySummary (r.scope reading.rules) reading.demand.modes x reading.demand.summary services

/-- The services have been written into the OperandConfig, but for a dry run, and nothing else has
changed. -/
structure Stores (r : Reconciler) (config : Tree) (services : List Tree)
    (before after : Progress) : Prop where
  written : after.cluster.config =
    if r.dryRun then before.cluster.config else some (Reconciler.withServices config services)
  tenants : after.cluster.tenants = before.cluster.tenants
  quiet : before.cluster.schedule.Quiet → after.cluster.schedule.Quiet
  named : r.dryRun = false →
    ∃ fields, Access.metadata (Reconciler.withServices config services) = .ok fields
  shallow : (Tree.list services).depth ≤ Tree.maxCompared

def Cluster.services (cluster : Cluster) : List Tree :=
  ((cluster.config.getD .null).follow ["spec", "services"]).items

theorem Reading.services_eq {r : Reconciler} {cluster : Cluster} (reading : Reading r cluster) :
    cluster.services = reading.held := by
  rw [Cluster.services, reading.stored, Option.getD_some, reading.listed, Tree.items]

namespace Reconciler

open Job

variable (r : Reconciler)

theorem run_replaceConfig (object : Tree) (p : Progress) :
    run (Access.replaceConfig object) p =
      match Access.metadata object with
      | .error failure => (.error failure, p)
      | .ok fields =>
        let space := Access.metadataField fields "namespace"
        let name := Access.metadataField fields "name"
        let mid : Progress := { p with
          effects := p.effects ++ [.call (.replace space name)]
          cluster := { p.cluster with schedule := p.cluster.schedule.after .replace } }
        match p.cluster.schedule.answer .replace with
        | some fault =>
          let key := Access.configKey space.shown name.shown
          (.error (.ofApi ("OperandConfig " ++ key) fault),
            { mid with notices := mid.notices ++ [.replaceFailed key fault] })
        | none =>
          (.ok object, { mid with cluster := { mid.cluster with config := some object } }) := by
  unfold Access.replaceConfig
  rw [run_bind, run_ofReport]
  cases Access.metadata object with
  | error failure => simp
  | ok fields =>
    simp only [Report.outcome_ofExcept, Report.notices_ofExcept, List.append_nil]
    rw [run_bind, run_request]
    simp only [Call.method]
    cases p.cluster.schedule.answer .replace <;> rfl

theorem run_write_ok {config : Tree} {services : List Tree} {unchanged : Bool} {p q : Progress}
    (shallow : (Tree.list services).depth ≤ Tree.maxCompared)
    (h : run (r.write config services unchanged) p = (.ok (), q)) :
    Stores r config services p q := by
  unfold write at h
  split at h
  · rename_i hd
    cases h
    exact ⟨by simp [hd], rfl, id, by simp [hd], shallow⟩
  · rename_i hd
    obtain ⟨object, mid, hr, h⟩ := run_bind_ok h
    have stored : Stores r config services p mid := by
      rw [run_replaceConfig] at hr
      split at hr
      · cases hr
      · rename_i fields hm
        dsimp only at hr
        split at hr
        · cases hr
        · cases hr
          exact ⟨by simp [hd], rfl, fun hq => hq.after .replace, fun _ => ⟨fields, hm⟩, shallow⟩
    split at h
    · cases h
      exact ⟨stored.written, stored.tenants, stored.quiet, stored.named, shallow⟩
    · cases h
      exact stored

theorem run_write_error {config : Tree} {services : List Tree} {unchanged : Bool} {p q : Progress}
    {failure : Failure} (h : run (r.write config services unchanged) p = (.error failure, q)) :
    Stays p q := by
  unfold write at h
  split at h
  · cases h
  · rw [run_bind, run_replaceConfig] at h
    split at h
    · rename_i outcome mid hm
      split at h <;> cases h
    · rename_i outcome mid hm
      cases h
      split at hm
      · cases hm
        exact .refl p
      · dsimp only at hm
        split at hm
        · cases hm
          exact ⟨rfl, rfl, fun hq => hq.after .replace⟩
        · cases hm

variable {r} {started : Notice} {prepare : Scope → List Tree → Report (List Tree)} {x : Extreme}
  {p q : Progress}

theorem exists_reconcile {job : Job Bool}
    (hj : job = r.shrink ∨ ∃ configs modes, job = r.update configs modes) :
    ∃ started prepare x, job = r.reconcile started prepare x := by
  rcases hj with rfl | ⟨configs, modes, rfl⟩
  · exact ⟨_, _, _, rfl⟩
  · exact ⟨_, _, _, rfl⟩

/-- A reconcile that ends well has read the cluster once, and stores the prepared services at the
level that it read. -/
theorem run_reconcile_ok {unchanged : Bool}
    (h : run (r.reconcile started prepare x) p = (.ok unchanged, q)) :
    ∃ (reading : Reading r p.cluster) (prepared : List Tree),
      (prepare (r.scope reading.rules) reading.held).outcome = .ok prepared ∧
      unchanged = (Tree.list reading.held).same (.list (reading.level x prepared)) ∧
      Stores r reading.config (reading.level x prepared) p q := by
  unfold reconcile at h
  obtain ⟨⟨config, held⟩, p₁, hf, h⟩ := run_bind_ok h
  obtain ⟨rules, p₂, hl, h⟩ := run_bind_ok h
  obtain ⟨_, p₃, hn, h⟩ := run_bind_ok h
  obtain ⟨prepared, p₄, hp, h⟩ := run_bind_ok h
  obtain ⟨services, p₅, ha, h⟩ := run_bind_ok h
  obtain ⟨same, p₆, hs, h⟩ := run_bind_ok h
  obtain ⟨_, p₇, hw, h⟩ := run_bind_ok h
  obtain ⟨stored, listed⟩ := r.run_fetch_ok hf
  have compared := congrArg Prod.fst hs
  rw [run_ofReport] at compared
  obtain ⟨⟨shallow, shallow'⟩, rfl⟩ := Tree.compare_eq_ok compared
  -- Up to the write, nothing that is read changes.
  have early : Stays p p₄ :=
    (((r.reads_fetch.of_run hf).trans (r.reads_loadRules.of_run hl)).trans
      ((reads_note _).of_run hn)).trans ((reads_ofReport _).of_run hp)
  have reads : Stays p p₆ :=
    (early.trans ((r.reads_aggregate _ _ _).of_run ha)).trans ((reads_ofReport _).of_run hs)
  have parsed : RuleSet.read r.rules = .ok rules := by
    rw [loadRules, run_ofReport] at hl
    exact congrArg Prod.fst hl
  have applied : (prepare (r.scope rules) held).outcome = .ok prepared := by
    rw [run_ofReport] at hp
    exact congrArg Prod.fst hp
  obtain ⟨demand, asked, level, _⟩ := run_aggregate_ok (congrArg Prod.fst ha)
  rw [early.tenants] at asked
  subst level
  cases h
  have hw := r.run_write_ok shallow' hw
  refine ⟨⟨config, held, rules, demand, stored, listed, parsed, asked, shallow⟩, prepared, applied,
    rfl, ?_⟩
  refine ⟨?_, hw.tenants.trans reads.tenants, fun hq => hw.quiet (reads.quiet hq), hw.named,
    shallow'⟩
  rw [hw.written, reads.config]
  rfl

/-- The services that a reconcile leaves: the prepared ones at the level that it read, or those that
it found if nothing is to be written. -/
theorem services_of_reconcile {unchanged : Bool} (reading : Reading r p.cluster)
    (h : run (r.reconcile started prepare x) p = (.ok unchanged, q)) :
    ∃ prepared, (prepare (r.scope reading.rules) reading.held).outcome = .ok prepared ∧
      q.cluster.services = if r.dryRun then reading.held else reading.level x prepared := by
  obtain ⟨other, prepared, hp, _, stores⟩ := run_reconcile_ok h
  obtain rfl := other.unique reading
  refine ⟨prepared, hp, ?_⟩
  rw [Cluster.services, stores.written]
  split
  · rw [other.stored, Option.getD_some, other.listed, Tree.items]
  · rw [Option.getD_some, follow_withServices other.listed, Tree.items]

/-- A reconcile that fails stores nothing. -/
theorem atomic_reconcile : Atomic (r.reconcile started prepare x) := by
  unfold reconcile
  refine r.reads_fetch.atomic_bind fun found => ?_
  refine r.reads_loadRules.atomic_bind fun rules => ?_
  refine (reads_note _).atomic_bind fun _ => ?_
  refine (reads_ofReport _).atomic_bind fun prepared => ?_
  refine (r.reads_aggregate _ _ _).atomic_bind fun services => ?_
  refine (reads_ofReport _).atomic_bind fun unchanged => ?_
  intro p failure q h
  rw [run_bind] at h
  split at h
  · cases h
  · rename_i hw
    cases h
    exact r.run_write_error hw

end Reconciler

namespace Sample

def rules : String :=
  "- name: db\n  spec:\n    cluster:\n      replicas: true\n"

def ruleSet : RuleSet where
  specs := [("db",
    { written := .null, rules := .map [("cluster", .map [("replicas", .bool true)])] })]

theorem exists_rules : ∃ rules, RuleSet.read Sample.rules = .ok rules := by
  have read : (RuleSet.read Sample.rules).isOk = true := by decide +kernel
  cases h : RuleSet.read Sample.rules with
  | ok rules => exact ⟨rules, rfl⟩
  | error failure => rw [h] at read; cases read

def reconciler : Reconciler where
  space := "ns"
  rules := rules

def service (fields : Entries) : Tree :=
  .map [("name", .text "db"), ("spec", .map [("cluster", .map fields)])]

def tenant (name : String) (spec : Entries) : Tree :=
  .map [("metadata", .map [("name", .text name), ("namespace", .text "ns")]), ("spec", .map spec)]

/-- A cluster with that one service and these tenants, where no call is refused. -/
def start (fields : Entries) (tenants : List Tree) : Progress where
  cluster :=
    { config := some (.map
        [("metadata", .map [("name", .text "common-service"), ("namespace", .text "ns")]),
          ("spec", .map [("services", .list [service fields])])])
      tenants := .list tenants }

end Sample

end TenantSizing
