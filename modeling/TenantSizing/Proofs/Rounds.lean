import TenantSizing.Proofs.Repetition
import TenantSizing.Proofs.Structure

namespace TenantSizing

open TenantSizing.Tree

/-- The rules by which a kind is released, none if its operand is not independent. -/
def Scope.releasedBy (scope : Scope) (independent : Bool) (operand kind : String) : Entries :=
  if independent then scope.rulesOf operand kind else []

theorem Scope.release_eq (scope : Scope) (independent : Bool) (operand kind : String)
    (tree : Tree) :
    scope.release independent (.text operand) kind tree =
      tree.dropManaged resetKeys (scope.releasedBy independent operand kind) := by
  unfold release releasedBy
  split
  · rfl
  · exact (dropManaged_of_conforms (released_of_no_rules tree)).symm

namespace Tree

variable {policy : MergePolicy} {x : Extreme} {rules : Entries} {wanted summed tree : Tree}

end Tree

section Kinds

variable {scope : Scope} {request : Request} {target : Target} {kind : String} {current : Tree}

/-- What a request merges into a kind: only a map, and only into a map. -/
def Request.merged (scope : Scope) (request : Request) (kind : String) (current : Tree) : Tree :=
  if current.isMap && (request.wanted scope kind).isMap then request.wanted scope kind else .null

theorem Request.applyKind_eq (request : Request) (kind : String) (current : Tree) :
    request.applyKind scope kind current =
      (current.dropManaged resetKeys
        (scope.releasedBy request.independent request.operand kind)).merge
        (request.kindPolicy scope kind) none (request.merged scope kind current) := by
  unfold applyKind merged
  dsimp only
  rw [Scope.release_eq, isMap_dropManaged]
  split
  · rfl
  · exact (merge_null _).symm

theorem Target.applyKind_eq (target : Target) (kind : String) (current : Tree) :
    target.applyKind scope kind current =
      (current.dropManaged resetKeys
        (scope.releasedBy target.independent target.operand kind)).extremeMerge target.extreme
        (target.summed.follow ["spec", kind]) := by
  unfold applyKind
  dsimp only
  rw [Scope.release_eq]
  split
  · rename_i hn
    rw [isNull_iff.mp hn, extremeMerge_null]
  · rfl

theorem Request.conforms_merged (request : Request) (kind : String) (current : Tree) :
    Conforms (released resetKeys) (scope.releasedBy request.independent request.operand kind)
      (request.merged scope kind current) := by
  unfold merged
  split
  · rw [wanted, Scope.release_eq]
    exact conforms_dropManaged _ _
  · exact conforms_null

/-- A request and a target of one operand, where all that the target releases is released by the
request already. -/
structure Matched (request : Request) (target : Target) : Prop where
  operand : request.operand = target.operand
  independent : target.independent = true → request.independent = true

/-- A request and the level of all tenants make a round of each kind. -/
theorem Matched.applyKind (h : Matched request target) (kind : String) (current : Tree) :
    target.applyKind scope kind (request.applyKind scope kind current) =
      settle (request.kindPolicy scope kind) target.extreme none
        (scope.releasedBy request.independent request.operand kind)
        (request.merged scope kind current) (target.summed.follow ["spec", kind]) current := by
  have conforms : Conforms (released resetKeys)
      (scope.releasedBy request.independent request.operand kind)
      (request.applyKind scope kind current) := by
    rw [request.applyKind_eq]
    exact (blend_merge _ _).conforms (conforms_dropManaged _ _)
      (request.conforms_merged kind current)
  have kept : (request.applyKind scope kind current).dropManaged resetKeys
      (scope.releasedBy target.independent target.operand kind) =
        request.applyKind scope kind current := by
    cases hi : target.independent with
    | true =>
      rw [← h.operand]
      rw [h.independent hi] at conforms
      exact dropManaged_of_conforms conforms
    | false => exact dropManaged_of_conforms (released_of_no_rules _)
  rw [target.applyKind_eq, kept, request.applyKind_eq, settle]

end Kinds

section Resources

variable {scope : Scope} {request : Request} {target : Target} {resource : Tree}

/-- What a request merges into a resource: the override of its identity, if there is one. -/
def Request.override (scope : Scope) (request : Request) (resource : Tree) : Tree :=
  match request.resources with
  | some overrides => (request.overrideFor? scope (completeResources overrides) resource).getD .null
  | none => .null

end Resources

namespace Tree

theorem KeyByKey.has {R : String → Tree → Tree → Prop} {a b : Tree} (h : KeyByKey R a b)
    (key : String) : b.has key = a.has key := by
  cases h with
  | other => rfl
  | maps entries =>
    simp only [Tree.has, Tree.entries, Keyed.has]
    induction entries with
    | nil => rfl
    | cons first rest ih =>
      rename_i x y _ _
      rw [Keyed.lookup_cons, Keyed.lookup_cons, first.1]
      split
      · rfl
      · exact ih

end Tree

section Services

variable {scope : Scope} {request : Request} {target : Target} {service : Tree}

end Services

end TenantSizing
