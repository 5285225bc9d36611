import TenantSizing.Proofs.Conformance
import TenantSizing.Proofs.Contributions
import TenantSizing.Proofs.Extremes
import TenantSizing.Proofs.FilteredMerges
import TenantSizing.Proofs.Requests
import TenantSizing.Proofs.Rework
import TenantSizing.Proofs.Summaries
import TenantSizing.Reconcile.Aggregate

namespace TenantSizing

open TenantSizing.Tree

/-- The rules of a kind of an operand, none if nothing is said about it. -/
abbrev Scope.rulesOf (scope : Scope) (operand kind : String) : Entries :=
  (scope.rules.forKind? (.text operand) kind).getD []

namespace Tree

theorem Conforms.orElse {allow : String → Tree → Bool → Bool} {rules : Entries} {tree : Tree}
    (h : Conforms allow rules tree) : Conforms allow rules (tree.orElse (.map [])) := by
  unfold Tree.orElse
  split
  · exact h
  · exact conforms_map.mpr (by simp)

end Tree

section Summary

variable {scope : Scope} {modes : Keyed String} {contributions : List Contribution}
  {summary : List Tree} {operand kind : String}

/-- A summary holds nothing of a kind that the rules do not know. -/
theorem kindOf_summarize_of_none (hr : scope.rules.forKind? (.text operand) kind = none)
    (h : (summarize scope modes contributions).outcome = .ok summary) :
    Services.kindOf summary operand kind = .null := by
  rw [kindOf_summarize operand kind h]
  refine List.foldlRecOn (motive := fun held => held = Tree.null) _ _ rfl ?_
  intro held hh wanted _
  rw [Scope.sumInto, hr]
  exact hh

/-- What holds of nothing, and is kept by summing up whatever is asked for, holds of a kind of a
summary. -/
theorem kindOf_summarize_of_some {P : Tree → Prop} {rules : Entries}
    (hr : scope.rules.forKind? (.text operand) kind = some rules) (empty : P .null)
    (step : ∀ held, P held → ∀ wanted ∈ asked operand kind contributions,
      P ((held.orElse (.map [])).filteredMerge Wish.policy rules false
        (scope.release (Mode.isIndependent (Mode.resolve Mode.fallback modes operand))
          (.text operand) kind wanted)))
    (h : (summarize scope modes contributions).outcome = .ok summary) :
    P (Services.kindOf summary operand kind) := by
  rw [kindOf_summarize operand kind h]
  refine List.foldlRecOn (motive := P) _ _ empty ?_
  intro held hh wanted hw
  rw [Scope.sumInto, hr]
  exact step held hh wanted hw

/-- Everything that a summary holds of a kind is governed. -/
theorem governed_kindOf_summarize (operand kind : String)
    (h : (summarize scope modes contributions).outcome = .ok summary) :
    Conforms governed (scope.rulesOf operand kind) (Services.kindOf summary operand kind) := by
  cases hr : scope.rules.forKind? (.text operand) kind with
  | none =>
    rw [kindOf_summarize_of_none hr h]
    exact conforms_null
  | some rules =>
    rw [Scope.rulesOf, hr]
    refine kindOf_summarize_of_some hr conforms_null ?_ h
    intro held _ wanted _
    exact conforms_filteredMerge (conforms_prune _ rules) (conforms_prune _ rules)

/-- Under an independent controller a summary holds nothing that is reset. -/
theorem released_kindOf_summarize (operand kind : String)
    (hi : Mode.isIndependent (Mode.resolve Mode.fallback modes operand) = true)
    (h : (summarize scope modes contributions).outcome = .ok summary) :
    Conforms (released resetKeys) (scope.rulesOf operand kind)
      (Services.kindOf summary operand kind) := by
  cases hr : scope.rules.forKind? (.text operand) kind with
  | none =>
    rw [kindOf_summarize_of_none hr h]
    exact conforms_null
  | some rules =>
    rw [Scope.rulesOf, hr]
    refine kindOf_summarize_of_some hr conforms_null ?_ h
    intro held hh wanted _
    rw [Scope.release, if_pos hi, hr]
    exact conforms_filteredMerge hh.orElse.prune (conforms_dropManaged wanted rules).prune

section Layers

variable {P : Nat → Tree → Prop} {n : Nat} (hP : Layered P)

include hP

theorem layered_asked
    (hc : ∀ contribution ∈ contributions, ∀ service ∈ contribution.services, P (n + 2) service) :
    ∀ wanted ∈ asked operand kind contributions, P n wanted := by
  intro wanted hw
  obtain ⟨contribution, hm, hw⟩ := List.mem_flatMap.mp hw
  obtain ⟨service, hs, hw⟩ := List.mem_flatMap.mp hw
  unfold asks at hw
  split at hw
  · have spec := hP.map_entries (hP.get (hc contribution hm service hs) "spec")
    exact hP.value spec _ (Keyed.mem_valuesAt.mp hw)
  · cases hw

theorem layered_kindOf_summarize
    (hc : ∀ contribution ∈ contributions, ∀ service ∈ contribution.services, P (n + 3) service)
    (h : (summarize scope modes contributions).outcome = .ok summary) (operand kind : String) :
    P (n + 1) (Services.kindOf summary operand kind) := by
  cases hr : scope.rules.forKind? (.text operand) kind with
  | none =>
    rw [kindOf_summarize_of_none hr h]
    exact hP.null (n + 1)
  | some rules =>
    refine kindOf_summarize_of_some (P := P (n + 1)) hr (hP.null (n + 1)) ?_ h
    intro held hh wanted hw
    exact hP.blend (blend_merge _ _) (hP.prune (hP.orElse hh) rules)
      (hP.prune (hP.release kind (layered_asked hP hc wanted hw)) rules)

theorem layered_resourcesOf_summarize
    (hc : ∀ contribution ∈ contributions, ∀ service ∈ contribution.services, P (n + 2) service)
    (h : (summarize scope modes contributions).outcome = .ok summary) (operand : String) :
    ∀ resource ∈ Services.resourcesOf summary operand, P n resource := by
  refine resourcesOf_summarize (P := P n) operand ?_ ?_ h
  · intro contribution hm service hs resource hr
    exact hP.releasedResource
      (hP.items (hP.get (hc contribution hm service hs) "resources") resource hr)
  · intro a b ha hb
    exact hP.blend (blend_merge a b) ha hb

end Layers

end Summary

namespace Target

/-- A target whose kinds are governed and, under an independent controller, released. -/
structure Sound (scope : Scope) (target : Target) : Prop where
  governed : ∀ kind, Conforms governed (scope.rulesOf target.operand kind)
    (target.summed.follow ["spec", kind])
  released : target.independent = true → ∀ kind, Conforms (released resetKeys)
    (scope.rulesOf target.operand kind) (target.summed.follow ["spec", kind])
  unruled : ∀ kind, scope.rules.forKind? (.text target.operand) kind = none →
    target.summed.follow ["spec", kind] = .null

end Target

theorem targetOf_sound {scope : Scope} {modes : Keyed String} {contributions : List Contribution}
    {summary : List Tree} (h : (summarize scope modes contributions).outcome = .ok summary)
    (x : Extreme) (service : Tree) : (targetOf modes x summary service).Sound scope where
  governed kind := governed_kindOf_summarize _ kind h
  released hi kind := released_kindOf_summarize _ kind hi h
  unruled _ hr := kindOf_summarize_of_none hr h

namespace Target

variable {scope : Scope} {target : Target}

/-- A released tree keeps to its release when it is released again. -/
theorem release_of_conforms (independent : Bool) {operand kind : String} {tree : Tree}
    (h : independent = true →
      Conforms (Tree.released resetKeys) (scope.rulesOf operand kind) tree) :
    scope.release independent (.text operand) kind tree = tree := by
  unfold Scope.release
  split
  · rename_i hi
    exact dropManaged_of_conforms (h hi)
  · rfl

/-- Under an independent controller a kind is left without anything that is reset. -/
theorem released_applyKind (hs : target.Sound scope) (hi : target.independent = true)
    (kind : String) (current : Tree) :
    Conforms (Tree.released resetKeys) (scope.rulesOf target.operand kind)
      (target.applyKind scope kind current) := by
  have held : Conforms (Tree.released resetKeys) (scope.rulesOf target.operand kind)
      (scope.release target.independent (.text target.operand) kind current) := by
    rw [Scope.release, if_pos hi]
    exact conforms_dropManaged current _
  unfold applyKind
  dsimp only
  split
  · exact held
  · exact (blend_extremeMerge _ _).conforms held (hs.released hi kind)

/-- A kind that nothing is said about stays. -/
theorem applyKind_of_unruled (hs : target.Sound scope) {kind : String}
    (hr : scope.rules.forKind? (.text target.operand) kind = none) (current : Tree) :
    target.applyKind scope kind current = current := by
  rw [applyKind, hs.unruled kind hr]
  apply release_of_conforms target.independent
  intro _
  rw [Scope.rulesOf, hr]
  exact released_of_no_rules current

theorem apply_eq_rework (target : Target) (service : Tree) :
    target.apply scope service =
      Services.rework (target.applyKinds scope) (List.map (target.applyResource scope))
        service := by
  unfold apply Services.rework Tree.replace
  cases service.get "spec" with
  | map kinds =>
    simp only [Services.onKinds]
    generalize service.set "spec" (.map (target.applyKinds scope kinds)) = halfway
    cases halfway.get "resources" <;> rfl
  | list items =>
    simp only [Services.onKinds]
    cases service.get "resources" <;> rfl
  | scalar value =>
    simp only [Services.onKinds]
    cases service.get "resources" <;> rfl

section Layers

variable {P : Nat → Tree → Prop} {n : Nat} (hP : Layered P)

include hP

theorem layered_applyKind {kind : String} {current : Tree}
    (hk : P n (target.summed.follow ["spec", kind])) (h : P n current) :
    P n (target.applyKind scope kind current) := by
  have held : P n (scope.release target.independent (.text target.operand) kind current) :=
    hP.release kind h
  unfold applyKind
  dsimp only
  split
  · exact held
  · exact hP.blend (blend_extremeMerge _ _) held hk

theorem layered_applyResource {resource : Tree}
    (hr : ∀ override ∈ (target.summed.get "resources").items, P n override) (h : P n resource) :
    P n (target.applyResource scope resource) := by
  unfold applyResource
  split
  · rename_i summed ho
    unfold overrideFor? at ho
    split at ho
    · exact hP.blend (blend_extremeMerge resource summed) h
        (hr summed (List.mem_of_find?_eq_some ho))
    · cases ho
  · exact h

theorem layered_apply {service : Tree} (hk : ∀ kind, P n (target.summed.follow ["spec", kind]))
    (hr : ∀ override ∈ (target.summed.get "resources").items, P n override)
    (h : P (n + 2) service) : P (n + 2) (target.apply scope service) := by
  rw [apply_eq_rework]
  refine hP.rework h (fun kinds hm => ?_) fun items hi => ?_
  · exact hP.values hm fun entry he =>
      layered_applyKind hP (hk entry.1) (hP.value hm entry he)
  · exact hP.listMap fun resource hm => layered_applyResource hP hr (hP.list.mp hi resource hm)

end Layers

end Target

section Services

variable {scope : Scope} {modes : Keyed String} {contributions : List Contribution}
  {summary : List Tree} {pass : Scalar → Bool}

theorem get_name_applySummaryTo (scope : Scope) (modes : Keyed String) (x : Extreme)
    (summary : List Tree) (service : Tree) :
    (applySummaryTo scope modes x summary service).get "name" = service.get "name" := by
  unfold applySummaryTo
  split
  · rw [Target.apply_eq_rework, Services.get_rework, if_neg (by decide), if_neg (by decide)]
  · rfl

theorem Tree.follow_spec (service : Tree) (kind : String) :
    service.follow ["spec", kind] = ((service.get "spec").entries.lookup kind).getD .null :=
  rfl

theorem Tree.at?_spec (service : Tree) (kind : String) :
    service.at? [.key "spec", .key kind] = (service.get "spec").entries.lookup kind := by
  rw [at?_cons]
  cases service with
  | scalar value => rfl
  | list items => rfl
  | map entries =>
    rw [child?, get_map]
    cases entries.lookup "spec" with
    | none => rfl
    | some spec => cases spec <;> simp [at?_cons, child?, Tree.entries]

theorem lookup_applySummaryTo (scope : Scope) (modes : Keyed String) (x : Extreme)
    (summary : List Tree) (service : Tree) (kind : String) :
    ((applySummaryTo scope modes x summary service).get "spec").entries.lookup kind =
      ((service.get "spec").entries.lookup kind).map
        ((targetOf modes x summary service).applyKind scope kind) := by
  unfold applySummaryTo
  split
  · rw [Target.apply_eq_rework, Services.get_rework, if_neg (by decide), if_pos rfl]
    cases service.get "spec" with
    | map kinds => exact Keyed.lookup_map kinds _ kind
    | list items => rfl
    | scalar value => rfl
  · rename_i hm
    rw [get_of_not_map (by simpa using hm)]
    rfl

theorem layered_applySummary {P : Nat → Tree → Prop} {n : Nat} (hP : Layered P) {x : Extreme}
    (hc : ∀ contribution ∈ contributions, ∀ service ∈ contribution.services, P (n + 3) service)
    (h : (summarize scope modes contributions).outcome = .ok summary) {services : List Tree}
    (hs : ∀ service ∈ services, P (n + 3) service) :
    ∀ service ∈ applySummary scope modes x summary services, P (n + 3) service := by
  intro service hm
  obtain ⟨before, hb, rfl⟩ := List.mem_map.mp hm
  unfold applySummaryTo
  split
  · exact Target.layered_apply hP (fun kind => layered_kindOf_summarize hP hc h _ kind)
      (layered_resourcesOf_summarize hP hc h _) (hs before hb)
  · exact hs before hb

end Services

end TenantSizing
