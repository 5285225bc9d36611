import TenantSizing.Proofs.Demands
import TenantSizing.Proofs.Repetition
import TenantSizing.Proofs.Structure
import TenantSizing.Proofs.Views

namespace TenantSizing

open TenantSizing.Tree Job

namespace Tree

variable {keys : List String}

theorem at?_key (tree : Tree) (name : String) (path : Path) :
    tree.at? (.key name :: path) = if tree.has name then (tree.get name).at? path else none := by
  rw [at?_cons, child?_key]
  split
  · rfl
  · rfl

theorem at?_null (hk : keys ≠ []) : Tree.null.at? (keys.map .key) = none := by
  obtain ⟨name, rest, rfl⟩ := List.exists_cons_of_ne_nil hk
  rfl

/-- Merging in a tree that holds nothing at a path of keys leaves what is held there. -/
theorem Pointwise.at?_of_missing {f : Option String → Tree → Tree → Tree} (h : Pointwise f)
    (key : Option String) {a b : Tree} (hk : keys ≠ []) (hb : b.at? (keys.map .key) = none) :
    (f key a b).at? (keys.map .key) = a.at? (keys.map .key) := by
  induction keys generalizing key a b with
  | nil => exact absurd rfl hk
  | cons name rest ih =>
    by_cases held : a.isMap = true ∨ a = .null
    · rw [List.map_cons, at?_key] at hb ⊢
      rw [at?_key, h.has key held, h.get key held]
      cases hn : b.has name with
      | false => rw [Bool.or_false, get_of_not_has hn, h.null_right]
      | true =>
        rw [hn, if_pos rfl] at hb
        have deeper : rest ≠ [] := by
          rintro rfl
          cases hb
        rw [Bool.or_true, if_pos rfl, ih _ deeper hb]
        split
        · rfl
        · rename_i absent
          rw [get_of_not_has (by simpa using absent), at?_null deeper]
    · obtain ⟨other, there⟩ := not_or.mp held
      rw [at?_of_not_map ((h.isMap key there).trans (by simpa using other)) hk,
        at?_of_not_map (by simpa using other) hk]

theorem at?_updateMap_erase (tree : Tree) (keys : List String) (name : String) :
    (tree.updateMap keys fun entries => Keyed.erase entries name).at?
      ((keys ++ [name]).map .key) = none := by
  induction keys generalizing tree with
  | nil =>
    cases tree with
    | map entries =>
      rw [updateMap, List.nil_append, List.map_singleton, at?_cons, child?, Keyed.lookup_erase,
        if_pos rfl, Option.bind_none]
    | list items => rfl
    | scalar value => rfl
  | cons key keys ih =>
    cases tree with
    | map entries =>
      rw [updateMap, List.cons_append, List.map_cons]
      cases hl : entries.lookup key with
      | none => rw [at?_cons, child?, hl, Option.bind_none]
      | some value =>
        rw [at?_cons, child?, Keyed.lookup_insert, if_pos rfl, Option.bind_some, ih]
    | list items => rfl
    | scalar value => rfl

end Tree

/-- Where an embedded resource holds its CPU limit. -/
def cpuLimit : Path :=
  ["data", "spec", "resources", "limits", "cpu"].map .key

/-- The resource holds the CPU limit that it held, or none as before. -/
def KeepsCpuLimit (before after : Tree) : Prop :=
  after.at? cpuLimit = before.at? cpuLimit

theorem KeepsCpuLimit.refl (resource : Tree) : KeepsCpuLimit resource resource := rfl

theorem KeepsCpuLimit.trans {a b c : Tree} (h : KeepsCpuLimit a b) (hs : KeepsCpuLimit b c) :
    KeepsCpuLimit a c :=
  Eq.trans hs h

/-- Merging in an override without a CPU limit. -/
theorem keepsCpuLimit_of_missing {f : Option String → Tree → Tree → Tree} (h : Pointwise f)
    (key : Option String) (resource : Tree) {override : Tree}
    (missing : override.at? cpuLimit = none) : KeepsCpuLimit resource (f key resource override) :=
  h.at?_of_missing key (by simp) missing

theorem at?_releasedResource (resource : Tree) :
    (releasedResource true resource).at? cpuLimit = none :=
  at?_updateMap_erase resource ["data", "spec", "resources", "limits"] "cpu"

/-- A tenant that leaves the operand to an independent controller itself requests no CPU limit. -/
theorem Request.keepsCpuLimit {request : Request} (owned : request.independent = true)
    (scope : Scope) (overrides : List Tree) (resource : Tree) :
    KeepsCpuLimit resource (request.applyResource scope overrides resource) := by
  unfold applyResource
  split
  · rename_i wanted ho
    unfold overrideFor? at ho
    split at ho
    · obtain ⟨found, _, rfl⟩ := Option.map_eq_some_iff.mp ho
      rw [owned]
      exact keepsCpuLimit_of_missing (pointwise_merge _) none resource (at?_releasedResource found)
    · cases ho
  · exact .refl resource

/-- A summary holds no CPU limit for an operand of an independent controller. -/
theorem at?_resourcesOf_summarize {scope : Scope} {modes : Keyed String}
    {contributions : List Contribution} {summary : List Tree} {operand : String}
    (owned : Mode.isIndependent (Mode.resolve Mode.fallback modes operand) = true)
    (h : (summarize scope modes contributions).outcome = .ok summary) :
    ∀ resource ∈ Services.resourcesOf summary operand, resource.at? cpuLimit = none := by
  refine resourcesOf_summarize (P := fun tree => tree.at? cpuLimit = none) operand ?_ ?_ h
  · intro _ _ _ _ resource _
    rw [owned]
    exact at?_releasedResource resource
  · intro a b ha hb
    exact Eq.trans (keepsCpuLimit_of_missing (pointwise_merge Wish.policy) none a hb) ha

theorem Target.keepsCpuLimit {target : Target} (scope : Scope)
    (missing : ∀ override ∈ (target.summed.get "resources").items, override.at? cpuLimit = none)
    (resource : Tree) : KeepsCpuLimit resource (target.applyResource scope resource) := by
  unfold applyResource
  split
  · rename_i summed ho
    unfold overrideFor? at ho
    split at ho
    · exact keepsCpuLimit_of_missing (pointwise_extremeMerge _) none resource
        (missing summed (List.mem_of_find?_eq_some ho))
    · cases ho
  · exact .refl resource

/-- A service that keeps its name, and the CPU limits of its resources if its operand is owned. -/
structure KeepsCpuLimits (owned : String → Prop) (before after : Tree) : Prop where
  name : after.get "name" = before.get "name"
  limits : owned (before.get "name").string →
    ItemByItem KeepsCpuLimit (before.get "resources") (after.get "resources")

section

variable {owned : String → Prop} {a b c : Tree}

theorem KeepsCpuLimits.refl (service : Tree) : KeepsCpuLimits owned service service where
  name := rfl
  limits _ := .refl .refl _

theorem KeepsCpuLimits.trans (h : KeepsCpuLimits owned a b) (hs : KeepsCpuLimits owned b c) :
    KeepsCpuLimits owned a c where
  name := hs.name.trans h.name
  limits ho := (h.limits ho).trans .trans (hs.limits (h.name ▸ ho))

/-- Reworking a service keeps its CPU limits if reworking its resources does. -/
theorem keepsCpuLimits_rework {f : Entries → Entries} {g : List Tree → List Tree}
    {service : Tree} (hg : owned (service.get "name").string → ∀ items,
      List.Forall₂ KeepsCpuLimit items (g items)) :
    KeepsCpuLimits owned service (Services.rework f g service) where
  name := by rw [Services.get_rework, if_neg (by decide), if_neg (by decide)]
  limits ho := by
    rw [Services.get_rework, if_pos rfl]
    cases service.get "resources" with
    | list items => exact .lists (hg ho items)
    | map entries => exact .other rfl
    | scalar value => exact .other rfl

end

section Reconcile

variable {scope : Scope} {owned : String → Prop} {services : List Tree}

/-- Configs keep the CPU limits of every operand that the modes of their tenant make independent or
that none of them is for. -/
theorem keepsCpuLimits_applyConfigs {modes : Tree} {configs after : List Tree}
    (known : ∀ operand, owned operand → Mode.makesIndependent modes operand = true ∨
      ∀ config ∈ configs, isConfigFor operand config = false)
    (h : (applyConfigs scope modes services configs).outcome = .ok after) :
    List.Forall₂ (KeepsCpuLimits owned) services after := by
  refine Report.foldlM_invariant (P := List.Forall₂ (KeepsCpuLimits owned) services) ?_
    (List.forall₂_same.mpr fun service _ => .refl service) h
  intro config hc before next hb ho
  rcases applyConfig_ok ho with ⟨rfl, _⟩ | ⟨_, mode, independent, map, _, resolved, told, rfl⟩
  · exact hb
  · refine forall₂_trans (fun _ _ _ => .trans) hb (Services.forall₂_change .refl ?_ before)
    intro service named
    rw [Request.apply_eq_rework]
    refine keepsCpuLimits_rework fun own items => ?_
    -- The config is for the operand, so the modes of its tenant make that independent.
    have title : (service.get "name").string = (config.get "name").string := by
      rw [Services.isNamed_text.mp named]
      rfl
    have covered : independent = true := by
      rcases known _ own with made | elsewhere
      · rw [Mode.makesIndependent, title, resolved] at made
        simpa [Except.bind, told, Except.toOption] using made
      · have here := elsewhere config hc
        rw [isConfigFor, map, Services.isFor, title] at here
        simp at here
    unfold Request.applyResources
    split
    · exact forall₂_map_of_forall fun resource _ => Request.keepsCpuLimit covered scope _ resource
    · exact List.forall₂_same.mpr fun resource _ => .refl resource

/-- A summary keeps the CPU limits of every operand that the modes of all tenants together make
independent. -/
theorem keepsCpuLimits_applySummary {modes : Keyed String} {contributions : List Contribution}
    {summary : List Tree} (x : Extreme)
    (known : ∀ operand, owned operand →
      Mode.isIndependent (Mode.resolve Mode.fallback modes operand) = true)
    (h : (summarize scope modes contributions).outcome = .ok summary) (services : List Tree) :
    List.Forall₂ (KeepsCpuLimits owned) services
      (applySummary scope modes x summary services) := by
  refine forall₂_map_of_forall fun service _ => ?_
  unfold applySummaryTo
  split
  · rw [Target.apply_eq_rework]
    refine keepsCpuLimits_rework fun own items => forall₂_map_of_forall fun resource _ => ?_
    exact (targetOf modes x summary service).keepsCpuLimit scope
      (at?_resourcesOf_summarize (known _ own) h) resource
  · exact .refl service

/-- An update keeps the CPU limits of embedded resources for every operand that the live tenants
together leave to an independent controller, provided that the tenant that triggers it does so by
its own modes as well or has no config for the operand. -/
theorem cpu_limits_kept {r : Reconciler} {configs : List Tree} {modes : Keyed String}
    {p q : Progress} {unchanged : Bool} (reading : Reading r p.cluster)
    (h : run (r.update configs (Mode.toTree modes)) p = (.ok unchanged, q)) :
    List.Forall₂
      (KeepsCpuLimits fun operand =>
        Mode.isIndependent (Mode.resolve Mode.fallback reading.demand.modes operand) = true ∧
          (Mode.isIndependent (Mode.resolve Mode.fallback modes operand) = true ∨
            ∀ config ∈ configs, isConfigFor operand config = false))
      p.cluster.services q.cluster.services := by
  obtain ⟨prepared, hp, services⟩ := Reconciler.services_of_reconcile reading h
  obtain ⟨contributions, sum⟩ := Reconciler.demanded_from reading.demanded
  rw [reading.services_eq, services]
  split
  · exact List.forall₂_same.mpr fun service _ => .refl service
  · refine forall₂_trans (fun _ _ _ => .trans)
      (keepsCpuLimits_applyConfigs (fun operand own => own.2.imp_left fun made => ?_) hp)
      (keepsCpuLimits_applySummary .max (fun operand own => own.1) sum.summary prepared)
    rw [Mode.makesIndependent, Mode.resolveTree_toTree]
    exact made

end Reconcile

/-- The CPU limits of the embedded resources, service by service. -/
def Cluster.cpuLimits (cluster : Cluster) : List (List (Option Tree)) :=
  cluster.services.map fun service =>
    (service.get "resources").items.map fun resource => resource.at? cpuLimit

namespace Sample

def limited (cpu : String) : Tree :=
  .map [("apiVersion", .text "v1"), ("kind", .text "Cluster"), ("name", .text "r"),
    ("data", .map [("spec", .map [("resources", .map [("limits", .map [("cpu", .text cpu)])])])])]

def limiting (cpu : String) : Tree :=
  .map [("name", .text "db"), ("spec", .map []), ("resources", .list [limited cpu])]

/-- A tenant that overrides the CPU limit, and declares no mode. -/
def claimant : Tree :=
  tenant "b" [("services", .list [limiting "4"])]

/-- A cluster whose other tenant leaves every operand to an independent controller. -/
def contested : Progress where
  cluster :=
    { config := some (.map
        [("metadata", .map [("name", .text "common-service"), ("namespace", .text "ns")]),
          ("spec", .map [("services", .list [limiting "1"])])])
      tenants := .list [tenant "a" [("profileController", .text "turbo")], claimant] }

end Sample

theorem cpu_limits_kept_contested :
    List.Forall₂ (KeepsCpuLimits fun operand => operand = "db") Sample.contested.cluster.services
      (run (Sample.reconciler.update [Sample.limiting "4"] (Mode.toTree [("db", "vpa")]))
        Sample.contested).2.cluster.services := by
  obtain ⟨rules, parsed⟩ := Sample.exists_rules
  have demanded : ((RuleSet.read Sample.rules).bind fun rules =>
      Sample.reconciler.demanded rules Sample.contested.cluster.tenants) =
        .ok { modes := [("profileController", "turbo")]
              summary := [.map [("name", .text "db"), ("spec", .map []),
                ("resources", .list [(Sample.limited "4").dropCpuLimit])]] } := by decide +kernel
  rw [parsed] at demanded
  let reading : Reading Sample.reconciler Sample.contested.cluster :=
    { config := _, held := [Sample.limiting "1"], rules, demand := _
      stored := rfl, listed := rfl, parsed, demanded, shallow := by decide +kernel }
  have updated : (run (Sample.reconciler.update [Sample.limiting "4"]
      (Mode.toTree [("db", "vpa")])) Sample.contested).1 = .ok true := by decide +kernel
  have together : Mode.isIndependent
      (Mode.resolve Mode.fallback [("profileController", "turbo")] "db") = true := by decide
  have own : Mode.isIndependent (Mode.resolve Mode.fallback [("db", "vpa")] "db") = true := by
    decide
  refine (cpu_limits_kept reading (run_of_outcome updated)).imp fun before after kept => ?_
  exact ⟨kept.name, fun here => kept.limits (by rw [here]; exact ⟨together, .inl own⟩)⟩

/-- The tenant without a mode overwrites the CPU limit, although the modes of all tenants together
leave the operand to an independent controller. -/
theorem cpu_limit_overwritten :
    ((RuleSet.read Sample.rules).bind fun rules =>
      (Sample.reconciler.demanded rules Sample.contested.cluster.tenants).map fun demand =>
        Mode.isIndependent (Mode.resolve Mode.fallback demand.modes "db")) = .ok true ∧
    Sample.contested.cluster.cpuLimits = [[some (.text "1")]] ∧
    (run (Sample.reconciler.updateFrom Sample.claimant) Sample.contested).1 = .ok false ∧
    (run (Sample.reconciler.updateFrom Sample.claimant) Sample.contested).2.cluster.cpuLimits =
      [[some (.text "4")]] := by
  decide +kernel

end TenantSizing
