import TenantSizing.Proofs.Outcomes
import TenantSizing.Proofs.SizingLevel

namespace TenantSizing

open TenantSizing.Tree Job

section Ends

variable {α β σ : Type} {P : α → Prop} {Q : β → Prop} {deep : Prop}

/-- The work ends well with something that has the property, unless some tree is too deep. -/
def Ends (deep : Prop) (work : Except Failure α) (P : α → Prop) : Prop :=
  (∃ value, work = .ok value ∧ P value) ∨ deep ∧ work = .error .tooDeep

theorem ends_ok {value : α} (h : P value) : Ends deep (.ok value) P :=
  .inl ⟨value, rfl, h⟩

theorem Ends.ok {work : Except Failure α} (h : Ends False work P) :
    ∃ value, work = .ok value ∧ P value :=
  h.resolve_right And.left

theorem Ends.bind {work : Except Failure α} {next : α → Except Failure β} (h : Ends deep work P)
    (hn : ∀ value, P value → Ends deep (next value) Q) : Ends deep (work.bind next) Q := by
  rcases h with ⟨value, rfl, hp⟩ | ⟨hd, rfl⟩
  · exact hn value hp
  · exact .inr ⟨hd, rfl⟩

theorem Ends.self {work : Except Failure α} (h : Ends deep work fun _ => True) :
    Ends deep work (work = .ok ·) := by
  rcases h with ⟨value, hw, -⟩ | h
  · exact .inl ⟨value, hw, hw⟩
  · exact .inr h

theorem ends_foldlM {P : σ → Prop} {step : σ → β → Report σ} {items : List β} {start : σ}
    (steps : ∀ state, P state → ∀ item ∈ items, Ends deep (step state item).outcome P)
    (hs : P start) : Ends deep (items.foldlM step start).outcome P := by
  induction items generalizing start with
  | nil => exact ends_ok hs
  | cons item rest ih =>
    rw [List.foldlM_cons, Report.outcome_bind]
    exact (steps start hs item (by simp)).bind fun next hn =>
      ih (fun state hp other ho => steps state hp other (by simp [ho])) hn

theorem ends_mapM {work : β → Report α} {items : List β}
    (each : ∀ item ∈ items, Ends deep (work item).outcome P) :
    Ends deep (items.mapM work).outcome fun results => ∀ result ∈ results, P result := by
  induction items with
  | nil => exact ends_ok (by simp)
  | cons item rest ih =>
    rw [List.mapM_cons, Report.outcome_bind]
    refine (each item (by simp)).bind fun first hf => ?_
    rw [Report.outcome_bind]
    refine (ih fun other ho => each other (by simp [ho])).bind fun others hr => ends_ok ?_
    exact List.forall_mem_cons.mpr ⟨hf, hr⟩

/-- Trees of some depth are copied as they are. -/
theorem ends_copies {items : List Tree} (hd : ¬(∀ item ∈ items, item.depth ≤ maxCopied) → deep) :
    Ends deep (items.mapM copy) (· = items) := by
  by_cases fits : ∀ item ∈ items, item.depth ≤ maxCopied
  · exact .inl ⟨items, mapM_copy_of_le fits, rfl⟩
  · exact .inr ⟨hd fits, mapM_copy_of_lt fits⟩

theorem ends_compare {a b : Tree} (hd : ¬(a.depth ≤ maxCompared ∧ b.depth ≤ maxCompared) → deep) :
    Ends deep (a.compare b) fun _ => True := by
  by_cases fits : a.depth ≤ maxCompared ∧ b.depth ≤ maxCompared
  · exact .inl ⟨_, compare_of_le fits.1 fits.2, trivial⟩
  · exact .inr ⟨hd fits, if_neg (by omega)⟩

end Ends

namespace Services

/-- A service whose name is a text, so that a mode can be looked up for it. -/
def HasName (service : Tree) : Prop :=
  ∃ name, service.get "name" = .text name

theorem hasName_of_string {service : Tree} (h : (service.get "name").string ≠ "") :
    HasName service :=
  ⟨_, Identity.text_of_string h⟩

theorem set_of_found {items : List Tree} {name : Tree} (h : (find? items name).isSome = true)
    (field : String) (value : Tree) (stub : Entries) :
    set items name field value stub =
      change items name fun item => .map (Keyed.insert item.entries field value) := by
  induction items with
  | nil => simp [find?] at h
  | cons item rest ih =>
    rw [set, change]
    by_cases hn : isNamed name item = true
    · rw [if_pos hn, if_pos hn]
    · rw [if_neg hn, if_neg hn, ih]
      rw [find?_cons, if_neg hn] at h
      exact h

end Services

namespace SizeTemplate

theorem hasName_lay {services : List Tree} {template : Tree}
    (hs : ∀ service ∈ services, Services.HasName service) (ht : Services.HasName template) :
    ∀ service ∈ lay services template, Services.HasName service := by
  obtain ⟨name, ht⟩ := ht
  unfold lay
  dsimp only
  split
  · intro service hm
    rcases List.mem_append.mp hm with hm | hm
    · exact hs service hm
    · rw [List.mem_singleton.mp hm]
      have blend := (blend_fill template (emptyService (template.get "name"))).get
        (isMap_of_get "name" (by rw [ht]; simp)) "name"
      have stub : (emptyService (template.get "name")).get "name" = .text name := ht
      rw [stub, ht] at blend
      exact ⟨name, by rw [ht]; exact blend.text⟩
  · rename_i current hc
    rw [Services.set_of_found (by rw [hc]; rfl)]
    intro service hm
    rcases Services.mem_change hm with hm | ⟨before, hb, _, rfl⟩
    · exact hs service hm
    · obtain ⟨title, hb⟩ := hs before hb
      refine ⟨title, ?_⟩
      rw [get_insert, if_neg (by decide)]
      exact hb

/-- A template that names no service twice, and of each fills one kind. -/
structure Stocked (parts : List Tree) : Prop where
  shaped : ∀ part ∈ parts, ∃ name kind fields, name ≠ "" ∧ part = service name kind fields
  distinct : (parts.map (·.get "name")).Nodup

theorem stocked_services (replicas pods instances : Int) (auth rest : Entries) :
    Stocked [identity replicas auth, webUI pods rest, postgresql instances] where
  shaped part hp := by
    simp only [List.mem_cons, List.not_mem_nil, or_false] at hp
    rcases hp with rfl | rfl | rfl <;> exact ⟨_, _, _, by decide, rfl⟩
  distinct := by
    have names : [identity replicas auth, webUI pods rest, postgresql instances].map
          (·.get "name") =
        [.text "ibm-im-operator", .text "ibm-idp-config-ui-operator",
          .text "common-service-postgresql"] := rfl
    rw [names]
    decide

theorem stocked_builtin {size : String} {template : Tree}
    (h : builtin.lookup size = some template) :
    ∃ parts, template = .list parts ∧ Stocked parts := by
  have all : ∀ entry ∈ builtin, ∃ parts, entry.2 = .list parts ∧ Stocked parts := by
    simp only [builtin, List.forall_mem_cons, List.not_mem_nil, false_implies, implies_true,
      and_true]
    exact ⟨⟨_, rfl, stocked_services _ _ _ _ _⟩, ⟨_, rfl, stocked_services _ _ _ _ _⟩,
      ⟨_, rfl, stocked_services _ _ _ _ _⟩, ⟨_, rfl, stocked_services _ _ _ _ _⟩⟩
  exact all _ (Keyed.mem_of_lookup h)

namespace Stocked

variable {parts : List Tree}

theorem string_ne (h : Stocked parts) : ∀ part ∈ parts, (part.get "name").string ≠ "" := by
  intro part hp
  obtain ⟨name, kind, fields, given, rfl⟩ := h.shaped part hp
  exact given

theorem hasName (h : Stocked parts) : ∀ part ∈ parts, Services.HasName part :=
  fun part hp => Services.hasName_of_string (h.string_ne part hp)

theorem all_isMap (h : Stocked parts) : parts.all Tree.isMap = true :=
  List.all_eq_true.mpr fun part hp => by
    obtain ⟨name, kind, fields, -, rfl⟩ := h.shaped part hp
    rfl

end Stocked

end SizeTemplate

namespace Contribution

theorem hasName_outline (tenant : String) (spec : Tree) :
    ∀ service ∈ (outline tenant spec).services, Services.HasName service := by
  refine outline_induction
    (motive := fun services _ => ∀ service ∈ services, Services.HasName service) tenant spec
    (by simp) fun services _ hs service _ named other ho => ?_
  rcases List.mem_append.mp ho with ho | ho
  · exact hs other ho
  · rw [List.mem_singleton.mp ho]
    exact Services.hasName_of_string named

theorem ends_sized {deep : Prop} (tenant size : String) {services : List Tree}
    (hs : ∀ service ∈ services, Services.HasName service) :
    Ends deep (sized none tenant size services).outcome fun laid =>
      ∀ service ∈ laid, Services.HasName service := by
  unfold sized
  split
  · exact ends_ok hs
  rw [Report.outcome_bind]
  cases hl : SizeTemplate.builtin.lookup (Text.lower size) with
  | none =>
    have template : templateFor none size = .ok .null := by rw [templateFor, hl]; rfl
    rw [Report.outcome_ofExcept, template]
    exact ends_ok hs
  | some found =>
    have template : templateFor none size = .ok found := by rw [templateFor, hl]; rfl
    have shallow : found.depth ≤ maxCopied :=
      depth_le_of_mem_map (by decide +kernel) (Keyed.mem_of_lookup hl)
    obtain ⟨parts, rfl, stocked⟩ := SizeTemplate.stocked_builtin hl
    have laid : SizeTemplate.apply services (.list parts) =
        .ok (parts.foldl SizeTemplate.lay services) := by
      simp [SizeTemplate.apply, Tree.elements?, Except.bind, stocked.all_isMap]
    simp only [Report.outcome_ofExcept, template, Except.bind, Tree.isNull, Bool.false_eq_true,
      if_false, Report.outcome_bind, copy_of_le shallow, laid]
    exact ends_ok (List.foldlRecOn
      (motive := fun items : List Tree => ∀ service ∈ items, Services.HasName service) _ _ hs
      fun items hi part hm => SizeTemplate.hasName_lay hi (stocked.hasName part hm))

/-- Whatever a map holds, it can be read as a tenant, and what is asked for is asked by name. -/
theorem ends_read {deep : Prop} {object : Tree} (h : object.isMap = true)
    (hd : ¬(outlineOf object).Copied → deep) :
    Ends deep (read none object).outcome fun contribution =>
      ∀ service ∈ contribution.services, Services.HasName service := by
  by_cases copied : (outlineOf object).Copied
  · rw [read_of_copied h copied, Report.outcome_bind, Report.outcome_note]
    simp only [Except.bind, Report.outcome_bind]
    exact (ends_sized _ _ (hasName_outline _ _)).bind fun services hs => ends_ok hs
  · exact .inr ⟨hd copied, read_of_deep h copied⟩

theorem copied_of_depth {object : Tree} (h : object.depth ≤ maxCompared) :
    (outlineOf object).Copied := by
  intro service hs
  have spec : (object.get "spec").depth ≤ maxCopied - 2 + 4 :=
    Nat.le_trans (layered_depth.get (n := maxCompared) (Nat.le_succ_of_le h) "spec") (by decide)
  have normal : service.depth ≤ maxCopied - 2 + 2 := layered_outline layered_depth _ spec service hs
  constructor
  · intro entry he
    have below := layered_depth.value (layered_depth.map_entries (layered_depth.get normal "spec"))
      entry (List.mem_filter.mp he).1
    exact Nat.le_trans below (by decide)
  · intro item hi
    have below := layered_depth.items (layered_depth.get normal "resources") item
      (List.mem_filter.mp hi).1
    exact Nat.le_trans below (by decide)

end Contribution

theorem ends_foldService {deep : Prop} (scope : Scope) (modes : Keyed String) (owner : String)
    (summary : List Tree) {service : Tree} (h : Services.HasName service) :
    Ends deep (foldService scope modes owner summary service).outcome fun _ => True := by
  obtain ⟨name, hn⟩ := h
  unfold foldService
  rw [hn]
  exact .inl ⟨_, Wish.outcome_fold _ _ _, trivial⟩

theorem ends_summarize {deep : Prop} (scope : Scope) (modes : Keyed String)
    {contributions : List Contribution}
    (h : ∀ contribution ∈ contributions, ∀ service ∈ contribution.services,
      Services.HasName service) :
    Ends deep (summarize scope modes contributions).outcome fun _ => True :=
  ends_foldlM (fun _ _ contribution hc =>
    ends_foldlM (fun summary _ service hs =>
      ends_foldService scope modes _ summary (h contribution hc service hs)) trivial) trivial

/-- Tenants that are maps demand something, whatever they hold. -/
theorem ends_demanded {deep : Prop} {r : Reconciler} (hb : r.templates = none) (rules : RuleSet)
    {tenants : List Tree} (h : ∀ tenant ∈ Tenant.live tenants, tenant.isMap = true)
    (hd : ∀ tenant ∈ Tenant.live tenants, ¬(Contribution.outlineOf tenant).Copied → deep) :
    Ends deep (r.demanded rules (.list tenants)) fun _ => True := by
  show Ends deep (readDemand (r.scope rules) r.templates (Tenant.live tenants)).outcome _
  rw [hb, readDemand, Report.outcome_bind]
  refine (ends_mapM fun tenant hm => Contribution.ends_read (h tenant hm) (hd tenant hm)).bind
    fun contributions hc => ?_
  rw [Report.outcome_bind]
  exact (ends_summarize (r.scope rules) _ hc).bind fun summary _ => ends_ok trivial

theorem Request.copied_of_depth {config : Tree} (h : config.depth ≤ maxCompared) :
    Copied config := by
  have shallow : config.depth ≤ maxCopied + 2 := Nat.le_trans h (by decide)
  exact ⟨layered_depth.value (layered_depth.map_entries (layered_depth.get shallow "spec")),
    layered_depth.items (layered_depth.get shallow "resources")⟩

/-- Whatever a config is, it can be applied to services that nobody has checked. -/
theorem ends_applyConfigs {deep : Prop} (scope : Scope) (modes : Keyed String)
    (services : List Tree) {configs : List Tree}
    (hd : ∀ config ∈ configs, ¬Request.Copied config → deep) :
    Ends deep (applyConfigs scope (Mode.toTree modes) services configs).outcome fun _ => True := by
  refine ends_foldlM (fun services _ config hc => ?_) trivial
  unfold applyConfig
  split
  · dsimp only
    split
    · exact ends_ok trivial
    rename_i entries _ service _
    simp only [Mode.resolveTree_toTree, Report.outcome_bind, Report.outcome_ofExcept,
      Report.outcome_note, Except.bind, Mode.treeIsIndependent]
    by_cases copied : Request.Copied (.map entries)
    · rw [Request.read_of_copied copied]
      exact ends_ok trivial
    · rw [Request.read_of_deep copied]
      exact .inr ⟨hd _ hc copied, rfl⟩
  · exact ends_ok trivial
  · exact ends_ok trivial

theorem metadata_of_isMap {config : Tree} (h : (config.get "metadata").isMap = true) :
    ∃ fields, Access.metadata config = .ok fields := by
  obtain ⟨fields, hf⟩ := isMap_iff.mp h
  cases config with
  | scalar value => cases hf
  | list items => cases hf
  | map entries =>
    rw [get_map] at hf
    cases hl : entries.lookup "metadata" with
    | none =>
      rw [hl] at hf
      cases hf
    | some value =>
      rw [hl] at hf
      obtain rfl : value = .map fields := hf
      exact ⟨fields, by rw [Access.metadata, hl]⟩

/-- Nothing that a reconcile is given is deeper than a comparison can go. -/
structure Shallow (held configs tenants : List Tree) : Prop where
  held : (Tree.list held).depth ≤ maxCompared
  configs : (Tree.list configs).depth ≤ maxCompared
  tenants : (Tree.list (Tenant.live tenants)).depth ≤ maxCompared

/-- The job ends well where everything is shallow, and can only fail for what is not. -/
def Tolerant (shallow : Prop) (job : Job Bool) (p : Progress) : Prop :=
  (shallow → ∃ unchanged q, run job p = (.ok unchanged, q)) ∧
    ∀ failure q, run job p = (.error failure, q) → failure = .tooDeep

theorem tolerant_of_ends {shallow : Prop} {job : Job Bool} {p : Progress}
    (h : Ends (¬shallow) (run job p).1 fun _ => True) : Tolerant shallow job p := by
  rcases hr : run job p with ⟨outcome, q⟩
  rw [hr] at h
  rcases h with ⟨unchanged, rfl, -⟩ | ⟨deep, rfl⟩
  · exact ⟨fun _ => ⟨unchanged, q, hr⟩, fun _ _ he => by cases hr.symm.trans he⟩
  · exact ⟨fun hs => absurd hs deep, fun _ _ he => by cases hr.symm.trans he; rfl⟩

namespace Reconciler

variable {r : Reconciler} {x : Extreme} {rules : RuleSet} {prepared tenants : List Tree}

/-- Shallow services stay shallow at whatever level shallow tenants ask for. -/
theorem depth_level_le {demand : Demand} (builtin : r.templates = none)
    (asked : (Tree.list (Tenant.live tenants)).depth ≤ maxCompared)
    (demanded : r.demanded rules (.list tenants) = .ok demand)
    (h : (Tree.list prepared).depth ≤ maxCompared) :
    (Tree.list (applySummary (r.scope rules) demand.modes x demand.summary prepared)).depth ≤
      maxCompared := by
  obtain ⟨contributions, sum⟩ := demanded_from demanded
  have wanted := sum.layered layered_depth (n := 321)
    (fun items hl tenant hm => by
      cases hl
      exact Nat.le_trans (depth_le_of_mem_list asked hm) (by decide))
    (by decide +kernel) (fun _ ht => by rw [builtin] at ht; cases ht)
  exact depth_list_le.mpr (layered_applySummary layered_depth wanted sum.summary
    (depth_list_le.mp h))

variable {deep : Prop} {cluster : Cluster} {config : Tree} {held : List Tree}
  {prepare : Scope → List Tree → Report (List Tree)}

/-- A reconcile ends well, unless something that it copies or compares is too deep. -/
theorem ends_ending (quiet : cluster.schedule.Quiet) (stored : cluster.config = some config)
    (named : (config.get "metadata").isMap = true)
    (listed : config.follow ["spec", "services"] = .list held)
    (parsed : RuleSet.read r.rules = .ok rules)
    (copies : ¬(∀ service ∈ held, service.depth ≤ maxCopied) → deep)
    (prepares : Ends deep (prepare (r.scope rules) held).outcome fun _ => True)
    (demands : Ends deep (r.demanded rules cluster.tenants) fun _ => True)
    (compares : ∀ prepared demand, (prepare (r.scope rules) held).outcome = .ok prepared →
      r.demanded rules cluster.tenants = .ok demand →
      ¬((Tree.list held).depth ≤ maxCompared ∧
        (Tree.list (applySummary (r.scope rules) demand.modes x demand.summary prepared)).depth ≤
          maxCompared) → deep) :
    Ends deep (r.ending prepare x cluster) fun _ => True := by
  -- Each stage is stopped by the depth of its trees or gives what the ones before it determine.
  have found : Ends deep (r.found cluster) (· = (config, held)) := by
    unfold found
    rw [Cluster.refusal_get, quiet.answer .get, stored]
    dsimp only [Option.getD_some]
    rw [listed]
    exact (ends_copies copies).bind fun _ same => ends_ok (by rw [same])
  have requested : r.requested rules cluster = r.demanded rules cluster.tenants := by
    unfold requested
    rw [Cluster.refusal_list, quiet.answer .list]
  have prepared : Ends deep (r.prepared prepare cluster) fun first =>
      first = (config, held, rules, first.2.2.2) ∧
        (prepare (r.scope rules) held).outcome = .ok first.2.2.2 := by
    refine found.bind fun _ same => ?_
    subst same
    show Ends deep ((RuleSet.read r.rules).bind _) _
    rw [parsed]
    exact prepares.self.bind fun services ready => ends_ok ⟨rfl, ready⟩
  have planned : Ends deep (r.planned prepare x cluster) fun plan => plan.1 = config := by
    refine prepared.bind fun first ready => ?_
    obtain ⟨config, held, rules, services⟩ := first
    obtain ⟨same, ready⟩ := ready
    cases same
    show Ends deep ((r.requested rules cluster).bind _) _
    rw [requested]
    refine demands.self.bind fun demand asked => ?_
    exact (ends_compare (compares services demand ready asked)).bind fun _ _ => ends_ok rfl
  refine planned.bind fun plan same => ?_
  have written : r.written plan.1 plan.2.1 cluster = .ok () := by
    obtain ⟨fields, hf⟩ := metadata_of_isMap named
    unfold written
    split
    · rfl
    · rw [same, metadata_withServices listed, hf]
      simp only [Except.bind, quiet.answer .replace]
  show Ends deep ((r.written plan.1 plan.2.1 cluster).bind _) _
  rw [written]
  exact ends_ok trivial

end Reconciler

/-- Malformed tenants never break a reconcile. With the built-in templates and rules that can be
read, and where no call is refused, an update and a shrinking end well: whatever the tenants hold,
whatever the services, their resources, the configs and the modes of an update are. Only a tree that
is nested too deep for a copy or a comparison can stop them. -/
theorem malformed_tenants_tolerated {r : Reconciler} {p : Progress} {rules : RuleSet}
    {config : Tree} {held tenants : List Tree} (builtin : r.templates = none)
    (parsed : RuleSet.read r.rules = .ok rules) (stored : p.cluster.config = some config)
    (named : (config.get "metadata").isMap = true)
    (listed : config.follow ["spec", "services"] = .list held)
    (known : p.cluster.tenants = .list tenants) (maps : ∀ tenant ∈ tenants, tenant.isMap = true)
    (quiet : p.cluster.schedule.Quiet) :
    (∀ (configs : List Tree) (modes : Keyed String),
      Tolerant (Shallow held configs tenants) (r.update configs (Mode.toTree modes)) p) ∧
    Tolerant (Shallow held [] tenants) r.shrink p := by
  have fits : ∀ {n : Nat} {services : List Tree}, (Tree.list services).depth ≤ maxCompared →
      maxCompared ≤ n → ∀ service ∈ services, service.depth ≤ n := fun h hn service hm =>
    Nat.le_trans (depth_le_of_mem_list h hm) hn
  have demands : ∀ configs, Ends (¬Shallow held configs tenants)
      (r.demanded rules p.cluster.tenants) fun _ => True := fun configs => by
    rw [known]
    exact ends_demanded builtin rules (fun tenant hm => maps tenant (Tenant.mem_live.mp hm).1)
      fun tenant hm deep shallow => deep (Contribution.copied_of_depth
        (fits shallow.tenants (Nat.le_refl _) tenant hm))
  have compares : ∀ x configs prepared demand, (Shallow held configs tenants →
        (Tree.list prepared).depth ≤ maxCompared) →
      r.demanded rules p.cluster.tenants = .ok demand →
      ¬((Tree.list held).depth ≤ maxCompared ∧
        (Tree.list (applySummary (r.scope rules) demand.modes x demand.summary prepared)).depth ≤
          maxCompared) → ¬Shallow held configs tenants := by
    intro x configs prepared demand below asked deep shallow
    rw [known] at asked
    exact deep ⟨shallow.held, Reconciler.depth_level_le builtin shallow.tenants asked
      (below shallow)⟩
  have copies : ∀ configs, ¬(∀ service ∈ held, service.depth ≤ maxCopied) →
      ¬Shallow held configs tenants := fun configs deep shallow =>
    deep (fits shallow.held (by decide))
  refine ⟨fun configs modes => tolerant_of_ends ?_, tolerant_of_ends ?_⟩
  · rw [Reconciler.update, Reconciler.run_reconcile]
    refine Reconciler.ends_ending quiet stored named listed parsed (copies configs)
      (ends_applyConfigs _ modes held fun config hc deep shallow =>
        deep (Request.copied_of_depth (fits shallow.configs (Nat.le_refl _) config hc)))
      (demands configs) fun prepared demand ready asked => ?_
    refine compares _ configs prepared demand (fun shallow => ?_) asked
    -- `n` is what is left of the depth below the list, a service and its spec.
    exact depth_list_le.mpr (layered_applyConfigs layered_depth (n := 322)
      (depth_list_le.mp shallow.configs) (depth_list_le.mp shallow.held) ready)
  · rw [Reconciler.shrink, Reconciler.run_reconcile]
    refine Reconciler.ends_ending quiet stored named listed parsed (copies []) (ends_ok trivial)
      (demands []) fun prepared demand ready asked => ?_
    refine compares _ [] prepared demand (fun shallow => ?_) asked
    cases ready
    exact shallow.held

/-- A cluster in which hardly anything has the shape that it should have. -/
def Sample.disordered : Progress where
  cluster :=
    { config := some (.map [("metadata", .map []), ("spec", .map [("services", .list
        [.null, .list [], service [("replicas", .text "lots")], .map [("name", .int 3)]])])])
      tenants := .list
        [.map [("metadata", .list []), ("spec", .text "none")],
          tenant "a" [("size", .text "Large"), ("profileController", .int 1),
            ("services", .list [.int 1, .map [("name", .list [])],
              service [("replicas", .list [.int 5])]])],
          tenant "b" [("size", .bool true), ("services", .map [])]] }

theorem malformed_tenants_tolerated_disordered :
    (∀ (configs : List Tree) (modes : Keyed String), (Tree.list configs).depth ≤ maxCompared →
      ∃ unchanged q, run (Sample.reconciler.update configs (Mode.toTree modes)) Sample.disordered =
        (.ok unchanged, q)) ∧
    ∃ unchanged q, run Sample.reconciler.shrink Sample.disordered = (.ok unchanged, q) := by
  obtain ⟨rules, parsed⟩ := Sample.exists_rules
  obtain ⟨updates, shrinks⟩ := malformed_tenants_tolerated (r := Sample.reconciler)
    (p := Sample.disordered) rfl parsed rfl rfl rfl rfl (by decide)
    fun method => by cases method <;> decide +kernel
  exact ⟨fun configs modes shallow =>
    (updates configs modes).1 ⟨by decide +kernel, shallow, by decide +kernel⟩,
    shrinks.1 ⟨by decide +kernel, by decide +kernel, by decide +kernel⟩⟩

namespace Sample

def nested (around : Tree → Tree) : Nat → Tree
  | 0 => .null
  | n + 1 => around (nested around n)

/-- No tenants, and an OperandConfig whose services can be copied but not compared. -/
def burrowed : Progress where
  cluster :=
    { config := some (.map
        [("metadata", .map [("name", .text "common-service"), ("namespace", .text "ns")]),
          ("spec", .map [("services", nested (fun tree => .list [tree]) 360)])])
      tenants := .list [] }

end Sample

/-- Services of the right shape stop an update by their depth. -/
theorem deep_services_stop_updates :
    (∃ rules, RuleSet.read Sample.reconciler.rules = .ok rules) ∧
      Sample.burrowed.cluster.schedule.Quiet ∧
      (run (Sample.reconciler.update [] (.map [])) Sample.burrowed).1 = .error .tooDeep :=
  ⟨Sample.exists_rules, fun method => by cases method <;> decide +kernel, by decide +kernel⟩

end TenantSizing
