import TenantSizing.Proofs.Outcomes
import TenantSizing.Proofs.ReorderedDemands
import TenantSizing.Proofs.ReorderedRules

namespace TenantSizing

open TenantSizing.Tree Job

/-- The same reconciler, with the entries of maps in its rules document and in its templates in any
order. -/
structure Reconciler.Reordered (r s : Reconciler) : Prop where
  space : r.space = s.space
  configName : r.configName = s.configName
  dryRun : r.dryRun = s.dryRun
  rules : Agree (fun first second => first.value.Reordered second.value)
    (RuleSet.document r.rules) (RuleSet.document s.rules)
  templates : Option.Rel Tree.Reordered r.templates s.templates

/-- The same cluster, with the entries of maps in its objects in any order. -/
structure Cluster.Reordered (cluster other : Cluster) : Prop where
  config : Option.Rel Tree.Reordered cluster.config other.config
  tenants : Tree.Reordered cluster.tenants other.tenants
  schedule : cluster.schedule = other.schedule

theorem Failure.unworded_ofApi (what other : String) (fault : ApiFault) :
    (ofApi what fault).unworded = (ofApi other fault).unworded := by
  unfold ofApi
  split
  · rfl
  · split <;> rfl

theorem Access.metadata_reordered {a b : Tree} (h : Tree.Reordered a b) :
    Agree (fun _ _ => True) (metadata a) (metadata b) := by
  obtain ⟨alike, -, -⟩ := h
  cases alike with
  | scalars value => exact .fails _
  | lists length items => exact .fails _
  | maps keys values =>
    rename_i xs ys
    have field : Option.Rel Alike (xs.lookup "metadata") (ys.lookup "metadata") :=
      (Alike.maps keys values).lookup "metadata"
    unfold metadata
    dsimp only
    generalize xs.lookup "metadata" = v, ys.lookup "metadata" = w at field
    cases field with
    | none => exact .ok trivial
    | some alike =>
      cases alike with
      | scalars value => exact .fails _
      | lists length items => exact .fails _
      | maps keys values => exact .ok trivial

theorem Tree.Reordered.compare {a b c d : Tree} (h : Tree.Reordered a b)
    (hc : Tree.Reordered c d) : Agree (· = ·) (a.compare c) (b.compare d) := by
  unfold Tree.compare
  rw [h.depth, hc.depth, h.same hc]
  split
  · exact .ok rfl
  · exact .fails _

namespace Reconciler

variable {r s : Reconciler} {cluster other : Cluster} {x : Extreme}
  {prepare prepare' : Scope → List Tree → Report (List Tree)}

theorem withServices_reordered {config config' : Tree} {xs ys : List Tree}
    (h : Tree.Reordered config config') (hs : List.Forall₂ Tree.Reordered xs ys) :
    Tree.Reordered (withServices config xs) (withServices config' ys) := by
  have services := Tree.Reordered.list hs
  refine ⟨alike_updateMap (fun us vs alike => alike.insert services.alike "services") _ h.alike,
    regular_updateMap (fun us hu => regular_insert hu services.first) h.first,
    regular_updateMap (fun us hu => regular_insert hu services.second) h.second⟩

namespace Reordered

variable (h : r.Reordered s) (hc : cluster.Reordered other)

include h hc

theorem found :
    Agree (fun first second => Tree.Reordered first.1 second.1 ∧
      List.Forall₂ Tree.Reordered first.2 second.2) (r.found cluster) (s.found other) := by
  have key : r.key = s.key := by rw [key, key, h.space, h.configName]
  have config := hc.config
  unfold Reconciler.found
  rw [Cluster.refusal_get, Cluster.refusal_get, hc.schedule, key]
  generalize cluster.config = v, other.config = w at config
  cases other.schedule.answer .get with
  | some fault => exact .fails _
  | none =>
    cases config with
    | none => exact .fails _
    | some config =>
      have services := config.follow ["spec", "services"]
      dsimp only [Option.getD_some]
      generalize Tree.follow _ ["spec", "services"] = v at services
      generalize Tree.follow _ ["spec", "services"] = w at services
      obtain ⟨alike, first, second⟩ := services
      cases alike with
      | scalars value => exact .fails _
      | maps keys values => exact .fails _
      | lists length items =>
        have held := reordered_list_iff.mp ⟨.lists length items, first, second⟩
        exact (copies_reordered held).bind fun _ _ copies => .ok ⟨config, copies⟩

theorem requested {rules others : RuleSet} (hr : rules.Alike others) :
    Agree Demand.Reordered (r.requested rules cluster) (s.requested others other) := by
  unfold Reconciler.requested
  rw [Cluster.refusal_list, Cluster.refusal_list, hc.schedule]
  cases other.schedule.answer .list with
  | some fault => exact .fails _
  | none => exact demanded_reordered hr h.space h.templates hc.tenants

variable (hp : ∀ scope scope' us vs, scope.Alike scope' → List.Forall₂ Tree.Reordered us vs →
  Agree (List.Forall₂ Tree.Reordered) (prepare scope us).outcome (prepare' scope' vs).outcome)

include hp

/-- What two reconciles have in hand when they come to their writes. -/
theorem planned :
    Agree (fun first second => Tree.Reordered first.1 second.1 ∧
      List.Forall₂ Tree.Reordered first.2.1 second.2.1 ∧ first.2.2 = second.2.2)
      (r.planned prepare x cluster) (s.planned prepare' x other) := by
  have prepared : Agree (fun first second => Tree.Reordered first.1 second.1 ∧
      List.Forall₂ Tree.Reordered first.2.1 second.2.1 ∧
      (r.scope first.2.2.1).Alike (s.scope second.2.2.1) ∧
      List.Forall₂ Tree.Reordered first.2.2.2 second.2.2.2)
      (r.prepared prepare cluster) (s.prepared prepare' other) := by
    refine (h.found hc).bind fun first second found => ?_
    refine (RuleSet.read_reordered h.rules).bind fun rules others alike => ?_
    have scopes : (r.scope rules).Alike (s.scope others) := ⟨alike, h.space⟩
    refine (hp _ _ _ _ scopes found.2).bind fun us vs services => ?_
    exact .ok ⟨found.1, found.2, scopes, services⟩
  refine prepared.bind fun first second prepared => ?_
  obtain ⟨config, held, scopes, services⟩ := prepared
  refine (h.requested hc scopes.rules).bind fun demand demand' requested => ?_
  have leveled := applySummary_reordered scopes x requested services
  refine ((Tree.Reordered.list held).compare (.list leveled)).bind fun _ _ unchanged => ?_
  exact .ok ⟨config, leveled, unchanged⟩

/-- Two reconciles end with the same result or fail alike. -/
theorem ending : Agree (· = ·) (r.ending prepare x cluster) (s.ending prepare' x other) := by
  refine (h.planned hc hp).bind fun first second plan => ?_
  obtain ⟨config, services, unchanged⟩ := plan
  have written : Agree (fun _ _ => True) (r.written first.1 first.2.1 cluster)
      (s.written second.1 second.2.1 other) := by
    unfold Reconciler.written
    rw [h.dryRun, hc.schedule]
    split
    · exact .ok trivial
    · refine (Access.metadata_reordered (withServices_reordered config services)).bind
        fun fields fields' _ => ?_
      cases other.schedule.answer .replace with
      | none => exact .ok trivial
      | some fault => exact .error (Failure.unworded_ofApi _ _ fault)
  refine written.bind fun _ _ _ => ?_
  exact .ok unchanged

end Reordered

end Reconciler

namespace Sample

/-- A reconciler with rules for two fields of a kind. -/
def ruled : Reconciler :=
  { reconciler with
    rules := "- name: db\n  spec:\n    cluster:\n      replicas: true\n      cpu: true\n" }

def word (text : String) : Yaml.Atom :=
  .scalar (.text text)

/-- A tenant that asks for more replicas than there are. -/
def asked : Progress :=
  start [("replicas", .int 2), ("cpu", .text "1")]
    [tenant "a" [("services", .list [service [("replicas", .int 3), ("cpu", .text "500m")]])]]

end Sample

end TenantSizing
