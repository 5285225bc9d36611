import TenantSizing.Proofs.Configs
import TenantSizing.Proofs.ReorderedMerges

namespace TenantSizing

open TenantSizing.Tree

section Lists

variable {α β : Type} {R : α → β → Prop} {p : α → Bool} {q : β → Bool} {xs : List α} {ys : List β}

theorem rel_find? (hp : ∀ x y, R x y → p x = q y) (h : List.Forall₂ R xs ys) :
    Option.Rel R (xs.find? p) (ys.find? q) := by
  induction h with
  | nil => exact .none
  | cons first rest ih =>
    rw [List.find?_cons, List.find?_cons, hp _ _ first]
    split
    · exact .some first
    · exact ih

theorem findIdx?_eq_of_forall₂ (hp : ∀ x y, R x y → p x = q y) (h : List.Forall₂ R xs ys) :
    xs.findIdx? p = ys.findIdx? q := by
  induction h with
  | nil => rfl
  | cons first rest ih => rw [List.findIdx?_cons, List.findIdx?_cons, hp _ _ first, ih]

theorem forall₂_filter (hp : ∀ x y, R x y → p x = q y) (h : List.Forall₂ R xs ys) :
    List.Forall₂ R (xs.filter p) (ys.filter q) := by
  induction h with
  | nil => exact .nil
  | cons first rest ih =>
    rw [List.filter_cons, List.filter_cons, hp _ _ first]
    split
    · exact .cons first ih
    · exact ih

theorem forall₂_map {γ δ : Type} {S : γ → δ → Prop} {f : α → γ} {g : β → δ}
    (hf : ∀ x y, R x y → S (f x) (g y)) (h : List.Forall₂ R xs ys) :
    List.Forall₂ S (xs.map f) (ys.map g) := by
  rw [List.forall₂_map_left_iff, List.forall₂_map_right_iff]
  exact h.imp hf

end Lists

namespace Services

variable {xs ys : List Tree} {name name' : Tree}

theorem isNamed_reordered (hn : Reordered name name') {a b : Tree} (h : Reordered a b) :
    isNamed name a = isNamed name' b := by
  rw [isNamed, isNamed, h.alike.isMap, (h.get "name").agrees hn]

theorem find?_reordered (hn : Reordered name name') (h : List.Forall₂ Reordered xs ys) :
    Option.Rel Reordered (find? xs name) (find? ys name') :=
  rel_find? (fun _ _ => isNamed_reordered hn) h

theorem set_reordered {field : String} {value value' : Tree} {stub stub' : Entries}
    (hn : Reordered name name') (hv : Reordered value value')
    (hs : Reordered (.map stub) (.map stub')) (h : List.Forall₂ Reordered xs ys) :
    List.Forall₂ Reordered (set xs name field value stub) (set ys name' field value' stub') := by
  induction h with
  | nil => exact .cons hs .nil
  | cons first rest ih =>
    rw [set, set, isNamed_reordered hn first]
    split
    · exact .cons (first.entries.insert hv field) rest
    · exact .cons first ih

theorem rework_reordered {f f' : Entries → Entries} {g g' : List Tree → List Tree} {a b : Tree}
    (hf : ∀ us vs, Reordered (.map us) (.map vs) → Reordered (.map (f us)) (.map (f' vs)))
    (hg : ∀ us vs, List.Forall₂ Reordered us vs → List.Forall₂ Reordered (g us) (g' vs))
    (h : Reordered a b) : Reordered (rework f g a) (rework f' g' b) := by
  have replace : ∀ (field : String) {change change' : Tree → Option Tree} {a b : Tree},
      (∀ v w, Reordered v w → Option.Rel Reordered (change v) (change' w)) → Reordered a b →
      Reordered (a.replace field change) (b.replace field change') := by
    intro field change change' a b hc h
    have value := hc _ _ (h.get field)
    unfold Tree.replace
    generalize change (a.get field) = v, change' (b.get field) = w at value
    cases value with
    | none => exact h
    | some related => exact h.set related field
  refine replace "resources" (fun v w hv => ?_) (replace "spec" (fun v w hv => ?_) h)
  · obtain ⟨alike, first, second⟩ := hv
    cases alike with
    | scalars value => exact .none
    | maps keys values => exact .none
    | lists length items =>
      exact .some (.list (hg _ _ (reordered_list_iff.mp ⟨.lists length items, first, second⟩)))
  · obtain ⟨alike, first, second⟩ := hv
    cases alike with
    | scalars value => exact .none
    | lists length items => exact .none
    | maps keys values => exact .some (hf _ _ ⟨.maps keys values, first, second⟩)

end Services

namespace Identity

variable {a b : Tree} {xs ys : List Tree}

theorem raw_reordered (h : Reordered a b) : raw a = raw b := by
  simp only [raw, (h.get _).alike.string]

theorem read_reordered (h : Reordered a b) (fallback : String) :
    read a fallback = read b fallback := by
  simp only [read, raw_reordered h]

theorem holds_reordered (identity : Identity) (fallback : String) (h : Reordered a b) :
    identity.holds fallback a = identity.holds fallback b := by
  simp only [holds, (h.get _).alike.text_iff, raw_reordered h]

theorem find?_reordered (identity : Identity) (fallback : String)
    (h : List.Forall₂ Reordered xs ys) :
    Option.Rel Reordered (identity.find? xs fallback) (identity.find? ys fallback) :=
  rel_find? (fun _ _ => holds_reordered identity fallback) h

theorem position?_reordered (identity : Identity) (fallback : String)
    (h : List.Forall₂ Reordered xs ys) :
    identity.position? xs fallback = identity.position? ys fallback :=
  findIdx?_eq_of_forall₂ (fun _ _ => holds_reordered identity fallback) h

end Identity

theorem completeResources_reordered {xs ys : List Tree} (h : List.Forall₂ Reordered xs ys) :
    List.Forall₂ Reordered (completeResources xs) (completeResources ys) :=
  forall₂_filter (fun _ _ hr => by rw [Identity.raw_reordered hr]) h

theorem releasedResource_reordered {a b : Tree} (independent : Bool) (h : Reordered a b) :
    Reordered (releasedResource independent a) (releasedResource independent b) := by
  unfold releasedResource
  split
  · exact h.dropCpuLimit
  · exact h

/-- The rules as one tree: under each operand those of its kinds. -/
def RuleSet.tree (rules : RuleSet) : Tree :=
  .map (rules.specs.map fun spec => (spec.1, spec.2.rules))

theorem RuleSet.lookup_tree (rules : RuleSet) (operand : String) :
    rules.tree.entries.lookup operand = (rules.specs.lookup operand).map OperandSpec.rules :=
  Keyed.lookup_map rules.specs (fun _ spec => spec.rules) operand

/-- The same rules, with the entries of maps in any order. -/
def RuleSet.Alike (rules others : RuleSet) : Prop :=
  Tree.Alike rules.tree others.tree

/-- The same scope, with alike rules. -/
structure Scope.Alike (scope other : Scope) : Prop where
  rules : scope.rules.Alike other.rules
  space : scope.space = other.space

section Scopes

variable {scope other : Scope} {operand operand' a b : Tree}

theorem RuleSet.Alike.forKind? {rules others : RuleSet} (h : rules.Alike others)
    (ho : Tree.Alike operand operand') (kind : String) :
    Option.Rel (fun us vs => Tree.Alike (.map us) (.map vs)) (rules.forKind? operand kind)
      (others.forKind? operand' kind) := by
  cases ho with
  | lists length items => exact .none
  | maps keys values => exact .none
  | scalars value =>
    cases value with
    | null | bool _ | int _ | float _ => exact .none
    | text name =>
      have specs := Tree.Alike.lookup h name
      rw [RuleSet.lookup_tree, RuleSet.lookup_tree] at specs
      unfold RuleSet.forKind?
      dsimp only
      generalize rules.specs.lookup name = v, others.specs.lookup name = w at specs
      cases v with
      | none => cases w <;> first | exact .none | cases specs
      | some spec =>
        cases w with
        | none => cases specs
        | some spec' =>
          cases specs with
          | some alike =>
            have kinds := alike.get kind
            simp only [Option.bind_some]
            generalize spec.rules.get kind = v, spec'.rules.get kind = w at kinds
            cases kinds with
            | scalars value => exact .none
            | lists length items => exact .none
            | maps keys values => exact .some (.maps keys values)

theorem Scope.Alike.release (h : scope.Alike other) (independent : Bool)
    (ho : Tree.Alike operand operand') (kind : String) (ht : Reordered a b) :
    Reordered (scope.release independent operand kind a)
      (other.release independent operand' kind b) := by
  unfold Scope.release
  split
  · refine ht.dropManaged resetKeys ?_
    have rules := h.rules.forKind? ho kind
    generalize scope.rules.forKind? operand kind = v,
      other.rules.forKind? operand' kind = w at rules
    cases rules with
    | none => exact .refl _
    | some alike => exact alike
  · exact ht

end Scopes

structure Request.Reordered (request other : Request) : Prop where
  operand : request.operand = other.operand
  independent : request.independent = other.independent
  spec : Tree.Reordered (.map request.spec) (.map other.spec)
  resources : Option.Rel (List.Forall₂ Tree.Reordered) request.resources other.resources

theorem Tree.Reordered.copy {a b : Tree} (h : Tree.Reordered a b) :
    Agree Tree.Reordered a.copy b.copy := by
  by_cases fits : a.depth ≤ Tree.maxCopied
  · rw [Tree.copy_of_le fits, Tree.copy_of_le (h.depth ▸ fits)]
    exact .ok h
  · have deep : Tree.maxCopied < a.depth := Nat.lt_of_not_le fits
    rw [Tree.copy_of_lt deep, Tree.copy_of_lt (h.depth ▸ deep)]
    exact .fails _

theorem copies_reordered {xs ys : List Tree} (h : List.Forall₂ Tree.Reordered xs ys) :
    Agree (List.Forall₂ Tree.Reordered) (xs.mapM Tree.copy) (ys.mapM Tree.copy) := by
  by_cases fits : ∀ tree ∈ xs, tree.depth ≤ Tree.maxCopied
  · rw [Tree.mapM_copy_of_le fits,
      Tree.mapM_copy_of_le ((Tree.Reordered.items_depth_le h _).mp fits)]
    exact .ok h
  · rw [Tree.mapM_copy_of_lt fits,
      Tree.mapM_copy_of_lt (mt (Tree.Reordered.items_depth_le h _).mpr fits)]
    exact .fails _

namespace Request

variable {scope other : Scope} {request request' : Request} {a b : Tree}

theorem reordered_ofConfig (h : Tree.Reordered a b) (independent : Bool) :
    (ofConfig a independent).Reordered (ofConfig b independent) where
  operand := (h.get "name").alike.string
  independent := rfl
  spec := (h.get "spec").entries
  resources := by
    have resources := h.get "resources"
    unfold ofConfig
    dsimp only
    generalize a.get "resources" = v, b.get "resources" = w at resources
    obtain ⟨alike, first, second⟩ := resources
    cases alike with
    | scalars value => exact .none
    | maps keys values => exact .none
    | lists length items =>
      exact .some (reordered_list_iff.mp ⟨.lists length items, first, second⟩)

theorem copied_reordered (h : Tree.Reordered a b) : Copied a ↔ Copied b :=
  have spec := (h.get "spec").entries.values_depth_le Tree.maxCopied
  have resources := Tree.Reordered.items_depth_le (h.get "resources").items Tree.maxCopied
  ⟨fun c => ⟨spec.mp c.spec, resources.mp c.resources⟩,
    fun c => ⟨spec.mpr c.spec, resources.mpr c.resources⟩⟩

theorem read_reordered (h : Tree.Reordered a b) (independent : Bool) :
    Agree Request.Reordered (read a independent) (read b independent) := by
  by_cases copied : Copied a
  · rw [read_of_copied copied, read_of_copied ((copied_reordered h).mp copied)]
    exact .ok (reordered_ofConfig h independent)
  · rw [read_of_deep copied, read_of_deep (mt (copied_reordered h).mpr copied)]
    exact .fails _

namespace Reordered

variable (h : request.Reordered request') (hs : scope.Alike other)

include h hs

theorem wanted (kind : String) :
    Tree.Reordered (request.wanted scope kind) (request'.wanted other kind) := by
  unfold Request.wanted
  rw [h.operand, h.independent]
  exact hs.release _ (.refl _) kind (h.spec.get kind)

theorem kindPolicy (kind : String) :
    request.kindPolicy scope kind = request'.kindPolicy other kind := by
  have rules := hs.rules.forKind? (.refl (.text request'.operand)) kind
  unfold Request.kindPolicy
  rw [h.operand]
  generalize scope.rules.forKind? (.text request'.operand) kind = v,
    other.rules.forKind? (.text request'.operand) kind = w at rules
  cases rules <;> rfl

theorem applyKind (kind : String) (hc : Tree.Reordered a b) :
    Tree.Reordered (request.applyKind scope kind a) (request'.applyKind other kind b) := by
  have held : Tree.Reordered
      (scope.release request.independent (.text request.operand) kind a)
      (other.release request'.independent (.text request'.operand) kind b) := by
    rw [h.operand, h.independent]
    exact hs.release _ (.refl _) kind hc
  have wanted := h.wanted hs kind
  unfold Request.applyKind
  dsimp only
  rw [held.alike.isMap, wanted.alike.isMap, h.kindPolicy hs kind]
  split
  · exact held.merge _ none wanted
  · exact held

theorem overrideFor? {us vs : List Tree} (ho : List.Forall₂ Tree.Reordered us vs)
    (hr : Tree.Reordered a b) :
    Option.Rel Tree.Reordered (request.overrideFor? scope us a)
      (request'.overrideFor? other vs b) := by
  unfold Request.overrideFor?
  rw [Identity.read_reordered hr, hs.space, h.independent]
  cases Identity.read b other.space with
  | error raw => exact .none
  | ok identity =>
    have found := Identity.find?_reordered identity other.space ho
    dsimp only
    generalize identity.find? us other.space = v, identity.find? vs other.space = w at found
    cases found with
    | none => exact .none
    | some override => exact .some (releasedResource_reordered _ override)

theorem applyResource {us vs : List Tree} (ho : List.Forall₂ Tree.Reordered us vs)
    (hr : Tree.Reordered a b) :
    Tree.Reordered (request.applyResource scope us a) (request'.applyResource other vs b) := by
  have found := h.overrideFor? hs ho hr
  unfold Request.applyResource
  generalize request.overrideFor? scope us a = v, request'.overrideFor? other vs b = w at found
  cases found with
  | none => exact hr
  | some wanted => exact hr.merge _ none wanted

theorem applyResources {us vs : List Tree} (hr : List.Forall₂ Tree.Reordered us vs) :
    List.Forall₂ Tree.Reordered (request.applyResources scope us)
      (request'.applyResources other vs) := by
  have resources := h.resources
  unfold Request.applyResources
  generalize request.resources = v, request'.resources = w at resources
  cases resources with
  | none => exact hr
  | some overrides =>
    exact forall₂_map (fun _ _ => h.applyResource hs (completeResources_reordered overrides)) hr

theorem apply (ht : Tree.Reordered a b) :
    Tree.Reordered (request.apply scope a) (request'.apply other b) := by
  rw [apply_eq_rework, apply_eq_rework]
  exact Services.rework_reordered
    (fun us vs kinds => kinds.map_values fun kind _ _ => h.applyKind hs kind)
    (fun us vs => h.applyResources hs) ht

end Reordered

end Request

namespace Mode

variable {a b : Tree}

end Mode

section Configs

variable {scope other : Scope} {modes modes' : Tree} {xs ys configs configs' : List Tree}

end Configs

end TenantSizing
