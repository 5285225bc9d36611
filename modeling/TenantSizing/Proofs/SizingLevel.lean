import TenantSizing.Proofs.Configs
import TenantSizing.Proofs.Demands
import TenantSizing.Proofs.Sizes

namespace TenantSizing

open TenantSizing.Tree

variable {scope : Scope} {operand kind : String} {path : List String}

/-- A path whose last key is comparable and whose every step the rules of a kind govern. -/
structure Scope.Sizes (scope : Scope) (operand kind : String) (path : List String) : Prop where
  governed : ∃ governing, scope.rules.forKind? (.text operand) kind = some governing ∧
    (Tree.map governing).follow path ≠ .null
  comparable : ∃ key ∈ comparableKeys, path.getLast? = some key

namespace Scope.Sizes

theorem ne_nil (h : scope.Sizes operand kind path) : path ≠ [] := by
  obtain ⟨key, _, hl⟩ := h.comparable
  rintro rfl
  cases hl

theorem sumInto (h : scope.Sizes operand kind path) {held wanted : Tree}
    (hh : sizedAlong path held = true) (hw : sizedAlong path wanted = true) :
    sizedAlong path (scope.sumInto false operand kind held wanted) = true ∧
      sizeAt path (scope.sumInto false operand kind held wanted) =
        Option.merge Max.max (sizeAt path held) (sizeAt path wanted) := by
  obtain ⟨governing, hr, hg⟩ := h.governed
  obtain ⟨key, hk, hl⟩ := h.comparable
  obtain ⟨sized, size⟩ := sizeAt_orElse h.ne_nil hh
  obtain ⟨sizedHeld, sizeHeld⟩ := sizeAt_prune governing sized fun _ => hg
  obtain ⟨sizedWanted, sizeWanted⟩ := sizeAt_prune governing hw fun _ => hg
  have allowed : Wish.policy.directAssign = true ∨
      (path.getLast?.or none).any Wish.policy.comparable.contains = true := by
    right
    simpa [hl, Wish.policy] using hk
  have combined := (combines_merge Wish.policy).sizeAt none allowed sizedHeld sizedWanted
  rw [sizeHeld, size, sizeWanted] at combined
  rw [Scope.sumInto, hr]
  exact combined

/-- A summary holds the largest size that is asked for. -/
theorem summarize (h : scope.Sizes operand kind path) {modes : Keyed String}
    {contributions : List Contribution} {summary : List Tree}
    (hm : Mode.isIndependent (Mode.resolve Mode.fallback modes operand) = false)
    (ha : ∀ wanted ∈ asked operand kind contributions, sizedAlong path wanted = true)
    (hs : (summarize scope modes contributions).outcome = .ok summary) :
    sizedAlong path (Services.kindOf summary operand kind) = true ∧
      sizeAt path (Services.kindOf summary operand kind) =
        largestAt path (asked operand kind contributions) := by
  rw [kindOf_summarize operand kind hs, hm]
  obtain ⟨sized, size⟩ := sizeAt_foldl (P := fun held => sizedAlong path held = true)
    (fun _ _ => h.sumInto) ha sizedAlong_null
  refine ⟨sized, ?_⟩
  rw [size, foldl_max, sizeAt_null, Option.merge_none_left]

end Scope.Sizes

theorem Services.kindOf_eq (items : List Tree) (name kind : String) :
    kindOf items name kind =
      ((find? items (.text name)).bind fun service =>
        (service.get "spec").entries.lookup kind).getD .null := by
  unfold kindOf entry
  cases find? items (.text name) <;> rfl

/-- Unless an independent controller owns it, a kind is merged with what the summary holds of it. -/
theorem applyKind_targetOf {modes : Keyed String} {x : Extreme} {summary : List Tree}
    {service : Tree} (named : (service.get "name").string = operand)
    (hm : Mode.isIndependent (Mode.resolve Mode.fallback modes operand) = false) (current : Tree) :
    (targetOf modes x summary service).applyKind scope kind current =
      current.extremeMerge x (Services.kindOf summary operand kind) := by
  have target : targetOf modes x summary service =
      { extreme := x, operand, independent := false
        summed := Services.entry summary operand } := by
    rw [targetOf, named, hm]
    rfl
  rw [target, Target.applyKind]
  show (if (Services.kindOf summary operand kind).isNull = true then current
    else current.extremeMerge x (Services.kindOf summary operand kind)) = _
  split
  · rename_i hn
    rw [isNull_iff.mp hn, extremeMerge_null]
  · rfl

theorem kindOf_applySummary {modes : Keyed String} {x : Extreme} {summary services : List Tree}
    (hm : Mode.isIndependent (Mode.resolve Mode.fallback modes operand) = false)
    (hk : (Services.kindOf services operand kind).isMap = true) :
    Services.kindOf (applySummary scope modes x summary services) operand kind =
      (Services.kindOf services operand kind).extremeMerge x
        (Services.kindOf summary operand kind) := by
  rw [Services.kindOf_eq] at hk
  rw [Services.kindOf_eq, Services.kindOf_eq services, applySummary,
    Services.find?_map (get_name_applySummaryTo scope modes x summary)]
  cases hf : Services.find? services (.text operand) with
  | none =>
    rw [hf] at hk
    cases hk
  | some service =>
    have named : service.get "name" = .text operand := Services.isNamed_text.mp (List.find?_some hf)
    rw [Option.map_some, Option.bind_some, Option.bind_some, lookup_applySummaryTo]
    cases hl : (service.get "spec").entries.lookup kind with
    | none =>
      rw [hf, Option.bind_some, hl] at hk
      cases hk
    | some current =>
      rw [Option.map_some, Option.getD_some, Option.getD_some,
        applyKind_targetOf (by rw [named]; rfl) hm]

/-- Assigns what a config asks for of a kind, as far as the two can be merged. -/
def Scope.assignInto (scope : Scope) (operand kind : String) (held wanted : Tree) : Tree :=
  if held.isMap && wanted.isMap then
    held.merge { directAssign := (scope.rules.forKind? (.text operand) kind).isSome } none wanted
  else held

theorem Mode.resolveTree_toTree (modes : Keyed String) (operand : String) :
    resolveTree (toTree modes) operand = .ok (.text (resolve fallback modes operand)) := by
  have texts : ∀ key, (modes.map fun entry => (entry.1, Tree.text entry.2)).lookup key =
      (modes.lookup key).map Tree.text := Keyed.lookup_map modes fun _ mode => Tree.text mode
  unfold resolveTree toTree resolve
  dsimp only
  rw [texts, texts]
  cases modes.lookup operand with
  | some mode => rfl
  | none => cases modes.lookup tenantWide <;> rfl

theorem Request.applyKind_of_shared {request : Request} (h : request.independent = false)
    (held : Tree) :
    request.applyKind scope kind held =
      scope.assignInto request.operand kind held ((request.spec.lookup kind).getD .null) := by
  simp [applyKind, wanted, kindPolicy, Scope.release, Scope.assignInto, h]

/-- There is nothing to assign to where nothing is held. -/
theorem Scope.foldl_assignInto_null (scope : Scope) (operand kind : String) (items : List Tree) :
    items.foldl (scope.assignInto operand kind) .null = .null := by
  induction items with
  | nil => rfl
  | cons wanted rest ih => exact ih

/-- A config without a name counts as one of the empty name where it is applied, and only there. -/
theorem string_name_iff {config : Tree}
    (hn : operand = "" → ∃ name, config.get "name" = .text name) :
    (config.get "name").string = operand ↔ config.get "name" = .text operand := by
  constructor
  · intro named
    by_cases he : operand = ""
    · obtain ⟨name, ht⟩ := hn he
      rw [ht] at named
      rw [ht]
      exact congrArg Tree.text named
    · rw [← named]
      exact Identity.text_of_string (named ▸ he)
  · intro text
    rw [text]
    rfl

theorem Services.kindOf_change (request : Request) (services : List Tree) (name : String) :
    kindOf (change services (.text name) (request.apply scope)) operand kind =
      if name = operand then
        (((find? services (.text operand)).bind fun service =>
          (service.get "spec").entries.lookup kind).map (request.applyKind scope kind)).getD .null
      else kindOf services operand kind := by
  rw [kindOf_eq, kindOf_eq services, find?_change (Request.get_name_apply request)]
  split
  · cases find? services (.text operand) with
    | none => rfl
    | some service =>
      rw [Option.map_some, Option.bind_some, Option.bind_some, Request.lookup_apply]
  · rfl

/-- A config assigns what it asks for, unless an independent controller owns the operand. -/
theorem kindOf_applyConfig {modes : Keyed String} {services after : List Tree} {config : Tree}
    (hm : Mode.isIndependent (Mode.resolve Mode.fallback modes operand) = false)
    (hn : operand = "" → ∃ name, config.get "name" = .text name)
    (hc : config.regular (fun _ => true) = true)
    (h : (applyConfig scope (Mode.toTree modes) services config).outcome = .ok after) :
    Services.kindOf after operand kind =
      (asks operand kind config).foldl (scope.assignInto operand kind)
        (Services.kindOf services operand kind) := by
  have named := string_name_iff hn
  rcases applyConfig_ok h with ⟨rfl, hs⟩ | ⟨_, mode, independent, _, _, hr, hi, rfl⟩
  · by_cases text : config.get "name" = .text operand
    · rcases hs with hs | hs
      · rw [get_of_not_map hs] at text
        cases text
      · have absent : Services.find? after (.text operand) = none := named.mpr text ▸ hs
        rw [Services.kindOf_eq, absent]
        exact (scope.foldl_assignInto_null operand kind _).symm
    · rw [asks, if_neg text]
      rfl
  · rw [Services.kindOf_change]
    by_cases text : config.get "name" = .text operand
    · have shared : independent = false := by
        rw [named.mpr text, Mode.resolveTree_toTree] at hr
        cases hr
        exact (Except.ok.inj hi).symm.trans hm
      subst shared
      rw [if_pos (named.mpr text), asks, if_pos text,
        Keyed.valuesAt_eq (nodup_entries (regular_get hc rfl "spec")), Services.kindOf_eq]
      cases (Services.find? services (.text operand)).bind fun service =>
          (service.get "spec").entries.lookup kind with
      | none => exact (scope.foldl_assignInto_null operand kind _).symm
      | some current =>
        rw [Option.map_some, Option.getD_some, Option.getD_some, Request.applyKind_of_shared rfl]
        show scope.assignInto (config.get "name").string kind current
          (((config.get "spec").entries.lookup kind).getD .null) = _
        rw [named.mpr text]
        cases (config.get "spec").entries.lookup kind with
        | none => simp [Scope.assignInto, isMap]
        | some wanted => rfl
    · rw [if_neg (fun he => text (named.mp he)), asks, if_neg text]
      rfl

theorem kindOf_applyConfigs {modes : Keyed String} {services after configs : List Tree}
    (hm : Mode.isIndependent (Mode.resolve Mode.fallback modes operand) = false)
    (hn : operand = "" → ∀ config ∈ configs, ∃ name, config.get "name" = .text name)
    (hc : ∀ config ∈ configs, config.regular (fun _ => true) = true)
    (h : (applyConfigs scope (Mode.toTree modes) services configs).outcome = .ok after) :
    Services.kindOf after operand kind =
      (configs.flatMap (asks operand kind)).foldl (scope.assignInto operand kind)
        (Services.kindOf services operand kind) := by
  rw [List.foldl_flatMap]
  exact Report.foldlM_view (fun items => Services.kindOf items operand kind) _
    (fun _ config hd _ ho => kindOf_applyConfig hm (fun he => hn he config hd) (hc config hd) ho) h

namespace Scope.Sizes

theorem assignInto (h : scope.Sizes operand kind path) {held wanted : Tree}
    (hh : held.isMap = true ∧ sizedAlong path held = true) (hw : sizedAlong path wanted = true) :
    ((scope.assignInto operand kind held wanted).isMap = true ∧
        sizedAlong path (scope.assignInto operand kind held wanted) = true) ∧
      sizeAt path (scope.assignInto operand kind held wanted) =
        Option.merge (fun _ b => b) (sizeAt path held) (sizeAt path wanted) := by
  obtain ⟨governing, hr, _⟩ := h.governed
  obtain ⟨hm, hs⟩ := hh
  have gone : wanted = .null ∨ wanted.isMap = true := by
    cases path with
    | nil => exact absurd rfl h.ne_nil
    | cons key keys => exact (sizedAlong_cons.mp hw).1
  rcases gone with rfl | hn
  · have stays : scope.assignInto operand kind held .null = held := by
      simp [Scope.assignInto, isMap]
    rw [stays, sizeAt_null, Option.merge_none_right]
    exact ⟨⟨hm, hs⟩, rfl⟩
  · rw [Scope.assignInto, hm, hn, hr]
    have combines := combines_merge { directAssign := true }
    obtain ⟨sized, size⟩ := combines.sizeAt none (.inl rfl) hs hw
    exact ⟨⟨combines.isMap none held wanted hm hn, sized⟩, size⟩

end Scope.Sizes

/-- The number that the stored OperandConfig holds at a path of a kind, if there is one. -/
def Cluster.sizeAt (cluster : Cluster) (operand kind : String) (path : List String) : Option ℚ :=
  cluster.config.bind fun config =>
    Tree.sizeAt path (Services.kindOf (config.follow ["spec", "services"]).items operand kind)

/-- A kind that the OperandConfig has, with nothing but sizes at a path, there and in whatever the
live tenants ask for; and no independent controller owns it. -/
structure Sized (held : List Tree) (contributions : List Contribution) (operand kind : String)
    (path : List String) : Prop where
  isMap : (Services.kindOf held operand kind).isMap = true
  held : (Services.kindOf held operand kind).sizedAlong path = true
  asked : ∀ wanted ∈ asked operand kind contributions, wanted.sizedAlong path = true
  shared : Mode.isIndependent (Mode.resolve Mode.fallback
    (Mode.gather (contributions.map Contribution.modes)) operand) = false

section Level

variable {r : Reconciler} {p q : Progress} {contributions : List Contribution}

/-- What a reconcile stores at the path is the prepared size, brought to the level of the largest
size that is asked for. -/
theorem sizeAt_of_reconcile {started : Notice} {prepare : Scope → List Tree → Report (List Tree)}
    {x : Extreme} {unchanged : Bool} (hd : r.dryRun = false) (reading : Reading r p.cluster)
    (hf : Demand.From r reading.rules p.cluster.tenants contributions reading.demand)
    (hg : (r.scope reading.rules).Sizes operand kind path)
    (hs : Sized reading.held contributions operand kind path)
    (kept : ∀ prepared, (prepare (r.scope reading.rules) reading.held).outcome = .ok prepared →
      (Services.kindOf prepared operand kind).isMap = true ∧
        (Services.kindOf prepared operand kind).sizedAlong path = true)
    (h : Job.run (r.reconcile started prepare x) p = (.ok unchanged, q)) :
    ∃ prepared, (prepare (r.scope reading.rules) reading.held).outcome = .ok prepared ∧
      q.cluster.sizeAt operand kind path =
        Option.merge x.level (Tree.sizeAt path (Services.kindOf prepared operand kind))
          (largestAt path (asked operand kind contributions)) := by
  obtain ⟨again, prepared, ho, _, stores⟩ := Reconciler.run_reconcile_ok h
  obtain rfl := again.unique reading
  refine ⟨prepared, ho, ?_⟩
  obtain ⟨map, sized⟩ := kept prepared ho
  have shared := hs.shared
  rw [← hf.modes] at shared
  obtain ⟨summed, largest⟩ := hg.summarize shared hs.asked hf.summary
  have written := stores.written
  rw [if_neg (by simp [hd])] at written
  rw [Cluster.sizeAt, written, Option.bind_some, follow_withServices again.listed, ← largest]
  show Tree.sizeAt path (Services.kindOf (again.level x prepared) operand kind) = _
  rw [Reading.level, kindOf_applySummary shared map]
  exact ((combines_extremeMerge x).sizeAt none trivial sized summed).2

/-- What the configs of a tenant leave of the size: the last one that they ask for, if any. -/
theorem sizeAt_of_configs {modes : Keyed String} {services after configs : List Tree}
    (h : scope.Sizes operand kind path)
    (hk : (Services.kindOf services operand kind).isMap = true ∧
      sizedAlong path (Services.kindOf services operand kind) = true)
    (hw : ∀ wanted ∈ configs.flatMap (asks operand kind), sizedAlong path wanted = true)
    (hm : Mode.isIndependent (Mode.resolve Mode.fallback modes operand) = false)
    (hn : operand = "" → ∀ config ∈ configs, ∃ name, config.get "name" = .text name)
    (hc : ∀ config ∈ configs, config.regular (fun _ => true) = true)
    (ho : (applyConfigs scope (Mode.toTree modes) services configs).outcome = .ok after) :
    ((Services.kindOf after operand kind).isMap = true ∧
        sizedAlong path (Services.kindOf after operand kind) = true) ∧
      Tree.sizeAt path (Services.kindOf after operand kind) =
        (((configs.flatMap (asks operand kind)).filterMap (Tree.sizeAt path)).getLast?).or
          (Tree.sizeAt path (Services.kindOf services operand kind)) := by
  rw [kindOf_applyConfigs hm hn hc ho]
  obtain ⟨kept, size⟩ := sizeAt_foldl
    (P := fun held => held.isMap = true ∧ sizedAlong path held = true)
    (fun _ _ => h.assignInto) hw hk
  refine ⟨kept, ?_⟩
  rw [size, foldl_assign]

/-- Where a governed path of a kind holds sizes only, a resync stores the larger one of the size
that was there and the largest that the live tenants ask for, and a delete the smaller one. An
update by a live tenant stores what a resync does, but the largest alone if the tenant asks for a
size itself. A service without a name must not be taken for one of the operand there. -/
theorem sizes_reach_level (hd : r.dryRun = false) (reading : Reading r p.cluster)
    (hf : Demand.From r reading.rules p.cluster.tenants contributions reading.demand)
    (hg : (r.scope reading.rules).Sizes operand kind path)
    (hs : Sized reading.held contributions operand kind path) :
    (∀ unchanged q, Job.run (r.update [] (.map [])) p = (.ok unchanged, q) →
      q.cluster.sizeAt operand kind path =
        Option.merge Max.max (p.cluster.sizeAt operand kind path)
          (largestAt path (asked operand kind contributions))) ∧
    (∀ unchanged q, Job.run r.shrink p = (.ok unchanged, q) →
      q.cluster.sizeAt operand kind path =
        Option.merge Min.min (p.cluster.sizeAt operand kind path)
          (largestAt path (asked operand kind contributions))) ∧
    (p.cluster.tenants.regular (fun _ => true) = true →
      (∀ tree, r.templates = some tree → tree.regular (fun _ => true) = true) →
      ∀ c ∈ contributions,
        Mode.isIndependent (Mode.resolve Mode.fallback c.modes operand) = false →
        (operand = "" → ∀ service ∈ c.services, ∃ name, service.get "name" = .text name) →
        ∀ unchanged q, Job.run (r.update c.services (Mode.toTree c.modes)) p = (.ok unchanged, q) →
          q.cluster.sizeAt operand kind path =
            if (largestAt path (asked operand kind [c])).isSome then
              largestAt path (asked operand kind contributions)
            else Option.merge Max.max (p.cluster.sizeAt operand kind path)
              (largestAt path (asked operand kind contributions))) := by
  have before : p.cluster.sizeAt operand kind path =
      Tree.sizeAt path (Services.kindOf reading.held operand kind) := by
    rw [Cluster.sizeAt, reading.stored, Option.bind_some, reading.listed]
    rfl
  refine ⟨?_, ?_, ?_⟩
  · intro unchanged q h
    obtain ⟨prepared, ho, size⟩ := sizeAt_of_reconcile hd reading hf hg hs
      (fun prepared ho => by cases ho; exact ⟨hs.isMap, hs.held⟩) h
    cases ho
    rw [size, before]
    rfl
  · intro unchanged q h
    obtain ⟨prepared, ho, size⟩ := sizeAt_of_reconcile hd reading hf hg hs
      (fun prepared ho => by cases ho; exact ⟨hs.isMap, hs.held⟩) h
    cases ho
    rw [size, before]
    rfl
  · intro ht hr c hc hm hn unchanged q h
    have own : asked operand kind [c] = c.services.flatMap (asks operand kind) := by
      rw [asked, List.flatMap_cons, List.flatMap_nil, List.append_nil]
    have among : ∀ wanted ∈ asked operand kind [c], wanted ∈ asked operand kind contributions := by
      intro wanted hw
      rw [own] at hw
      exact List.mem_flatMap.mpr ⟨c, hc, hw⟩
    have regular := hf.regular (fun _ _ => rfl) ht hr c hc
    have applied := fun prepared (ho : (applyConfigs (r.scope reading.rules) (Mode.toTree c.modes)
        reading.held c.services).outcome = .ok prepared) =>
      sizeAt_of_configs hg ⟨hs.isMap, hs.held⟩
        (fun wanted hw => hs.asked wanted (among wanted (own ▸ hw))) hm hn regular ho
    obtain ⟨prepared, ho, size⟩ := sizeAt_of_reconcile hd reading hf hg hs
      (fun prepared ho => (applied prepared ho).1) h
    rw [size, (applied prepared ho).2, ← own, ← before]
    exact merge_last (p.cluster.sizeAt operand kind path) among

end Level

deriving instance DecidableEq for Contribution
deriving instance DecidableEq for Demand

namespace Sample

/-- An OperandConfig with 7 replicas, and two tenants that ask for 3 and 5 of them. -/
def oversized : Progress :=
  start [("replicas", .int 7)]
    [tenant "a" [("services", .list [service [("replicas", .text "3")]])],
      tenant "b" [("services", .list [service [("replicas", .int 5)]])]]

def wanted (replicas : Tree) : Tree :=
  .map [("name", .text "db"), ("spec", .map [("cluster", .map [("replicas", replicas)])]),
    ("resources", .list [])]

def first : Contribution where
  name := "a"
  space := "ns"
  services := [wanted (.text "3")]
  modes := []

def second : Contribution where
  name := "b"
  space := "ns"
  services := [wanted (.int 5)]
  modes := []

end Sample

theorem sizes_reach_level_oversized :
    (Job.run (Sample.reconciler.update [] (.map [])) Sample.oversized).2.cluster.sizeAt
        "db" "cluster" ["replicas"] = some 7 ∧
      (Job.run Sample.reconciler.shrink Sample.oversized).2.cluster.sizeAt
        "db" "cluster" ["replicas"] = some 5 ∧
      (Job.run (Sample.reconciler.update Sample.first.services (Mode.toTree Sample.first.modes))
        Sample.oversized).2.cluster.sizeAt "db" "cluster" ["replicas"] = some 5 := by
  obtain ⟨rules, parsed⟩ : ∃ rules, RuleSet.read Sample.rules = .ok rules := by
    have read : (RuleSet.read Sample.rules).isOk = true := by decide +kernel
    cases h : RuleSet.read Sample.rules with
    | ok rules => exact ⟨rules, rfl⟩
    | error failure => rw [h] at read; cases read
  -- What depends on the rules is evaluated together with their reading.
  have ruled : (RuleSet.read Sample.rules).map (·.forKind? (.text "db") "cluster") =
      .ok (some [("replicas", .bool true)]) := by decide +kernel
  have demanded : ((RuleSet.read Sample.rules).bind fun rules =>
      Sample.reconciler.demanded rules Sample.oversized.cluster.tenants) =
        .ok { modes := [], summary := [Sample.wanted (.int 5)] } := by decide +kernel
  have summary : ((RuleSet.read Sample.rules).bind fun rules =>
      (summarize (Sample.reconciler.scope rules) [] [Sample.first, Sample.second]).outcome) =
        .ok [Sample.wanted (.int 5)] := by decide +kernel
  rw [parsed] at ruled demanded summary
  let reading : Reading Sample.reconciler Sample.oversized.cluster :=
    { config := _, held := [Sample.service [("replicas", .int 7)]], rules, demand := _
      stored := rfl, listed := rfl, parsed, demanded, shallow := by decide +kernel }
  have live : Tenant.live Sample.oversized.cluster.tenants.items =
      Sample.oversized.cluster.tenants.items := by decide +kernel
  have asking : Demand.From Sample.reconciler reading.rules Sample.oversized.cluster.tenants
      [Sample.first, Sample.second] reading.demand := by
    refine { read := ⟨Sample.oversized.cluster.tenants.items, rfl, ?_⟩, modes := rfl, summary }
    rw [live]
    exact .cons (by decide +kernel) (.cons (by decide +kernel) .nil)
  have governed : (Sample.reconciler.scope reading.rules).Sizes "db" "cluster" ["replicas"] :=
    { governed := ⟨_, Except.ok.inj ruled, by decide⟩
      comparable := ⟨"replicas", by decide, rfl⟩ }
  have sized : Sized [Sample.service [("replicas", .int 7)]] [Sample.first, Sample.second]
      "db" "cluster" ["replicas"] :=
    { isMap := by decide +kernel, held := by decide +kernel, asked := by decide +kernel
      shared := by decide +kernel }
  obtain ⟨grown, shrunk, own⟩ := sizes_reach_level rfl reading asking governed sized
  have before : Sample.oversized.cluster.sizeAt "db" "cluster" ["replicas"] = some 7 := by
    decide +kernel
  have largest : largestAt ["replicas"] (asked "db" "cluster" [Sample.first, Sample.second]) =
      some 5 := by decide +kernel
  have asks : (largestAt ["replicas"] (asked "db" "cluster" [Sample.first])).isSome = true := by
    decide +kernel
  have max : Option.merge Max.max (some 7) (some 5) = some (7 : ℚ) := by decide +kernel
  have min : Option.merge Min.min (some 7) (some 5) = some (5 : ℚ) := by decide +kernel
  rw [before, largest] at grown shrunk own
  have resynced : (Job.run (Sample.reconciler.update [] (.map [])) Sample.oversized).1 =
      .ok true := by decide +kernel
  have deleted : (Job.run Sample.reconciler.shrink Sample.oversized).1 = .ok false := by
    decide +kernel
  have updated : (Job.run (Sample.reconciler.update Sample.first.services
      (Mode.toTree Sample.first.modes)) Sample.oversized).1 = .ok false := by decide +kernel
  have applied := own (by decide +kernel) (fun _ he => by cases he) Sample.first (by simp)
    (by decide +kernel) (fun he => absurd he (by decide)) false _ (Job.run_of_outcome updated)
  refine ⟨?_, ?_, ?_⟩
  · exact (grown true _ (Job.run_of_outcome resynced)).trans max
  · exact (shrunk false _ (Job.run_of_outcome deleted)).trans min
  · exact applied.trans (if_pos asks)

end TenantSizing
