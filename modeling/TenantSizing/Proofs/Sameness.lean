import TenantSizing.Proofs.NumberValues
import TenantSizing.Proofs.Places
import TenantSizing.Proofs.Reordering

namespace TenantSizing

namespace Tree

/-- Two nodes, apart from what lies below them: maps, lists, or equal scalars. -/
inductive SameNode : Tree → Tree → Prop where
  | map (xs ys : Entries) : SameNode (.map xs) (.map ys)
  | list (xs ys : List Tree) : SameNode (.list xs) (.list ys)
  | scalar {a b : Scalar} (equal : a.Equal b) : SameNode (.scalar a) (.scalar b)

variable {a b c x y : Tree} {path : Path} {step : Step}

namespace SameNode

theorem symm (h : SameNode a b) : SameNode b a := by
  cases h with
  | map xs ys => exact .map ys xs
  | list xs ys => exact .list ys xs
  | scalar equal => exact .scalar equal.symm

theorem trans (h : SameNode a b) (h' : SameNode b c) : SameNode a c := by
  cases h with
  | map xs ys => cases h' with | map _ zs => exact .map xs zs
  | list xs ys => cases h' with | list _ zs => exact .list xs zs
  | scalar equal => cases h' with | scalar equal' => exact .scalar (equal.trans equal')

theorem kind (h : SameNode a b) : a.kind = b.kind := by
  cases h <;> rfl

theorem bool_iff (h : SameNode a b) (flag : Bool) : a = .bool flag ↔ b = .bool flag := by
  cases h with
  | map xs ys => simp
  | list xs ys => simp
  | scalar equal =>
    cases equal with
    | null => simp
    | bool value => simp
    | text value => simp
    | number first second =>
      constructor
      · intro he
        cases he
        cases first
      · intro he
        cases he
        cases second

end SameNode

/-- The same paths lead through both trees, to nodes that are alike. -/
def SamePaths (a b : Tree) : Prop :=
  ∀ path, Option.Rel SameNode (a.at? path) (b.at? path)

theorem SamePaths.symm (h : SamePaths a b) : SamePaths b a := by
  intro path
  have there := h path
  generalize a.at? path = v, b.at? path = w at there
  cases there with
  | none => exact .none
  | some node => exact .some node.symm

theorem SamePaths.trans (h : SamePaths a b) (h' : SamePaths b c) : SamePaths a c := by
  intro path
  have there := h path
  have beyond := h' path
  generalize a.at? path = u, b.at? path = v, c.at? path = w at there beyond
  cases there with
  | none =>
    cases beyond
    exact .none
  | some node =>
    cases beyond with
    | some next => exact .some (node.trans next)

theorem same_at? (h : a.same b = true) (path : Path) :
    Option.Rel (fun x y => x.same y = true) (a.at? path) (b.at? path) := by
  induction path generalizing a b with
  | nil => exact .some h
  | cons step path ih =>
    have below := same_child h step
    rw [at?_cons, at?_cons]
    generalize a.child? step = v, b.child? step = w at below
    cases below with
    | none => exact .none
    | some same => exact ih same

theorem same_follow (h : a.same b = true) (keys : List String) :
    (a.follow keys).same (b.follow keys) = true := by
  induction keys generalizing a b with
  | nil => exact h
  | cons key keys ih => exact ih (same_get h key)

theorem sameNode_of_same (h : a.same b = true) : SameNode a b := by
  have kinds := same_kind h
  cases a with
  | map xs =>
    cases b with
    | map ys => exact .map xs ys
    | list ys => cases kinds
    | scalar t => cases kinds
  | list xs =>
    cases b with
    | map ys => cases kinds
    | list ys => exact .list xs ys
    | scalar t => cases kinds
  | scalar s =>
    cases b with
    | map ys => cases kinds
    | list ys => cases kinds
    | scalar t => exact .scalar (.of_same h)

theorem samePaths_of_same (h : a.same b = true) : SamePaths a b := by
  intro path
  have there := same_at? h path
  generalize a.at? path = v, b.at? path = w at there
  cases there with
  | none => exact .none
  | some same => exact .some (sameNode_of_same same)

theorem SamePaths.child (h : SamePaths a b) (hx : a.child? step = some x)
    (hy : b.child? step = some y) : SamePaths x y := by
  intro path
  have below := h (step :: path)
  rwa [at?_cons, at?_cons, hx, hy] at below

/-- By induction on the tree: the empty path compares the roots, every other one a child. -/
theorem same_of_samePaths (ha : a.regular Scalar.isComparable = true)
    (hb : b.regular Scalar.isComparable = true) (h : SamePaths a b) : a.same b = true := by
  induction a using induct_children generalizing b with
  | h a ih =>
    cases h [] with
    | some root =>
      by_cases container : a.kind = .scalar
      · cases root with
        | map xs ys => cases container
        | list xs ys => cases container
        | scalar equal => exact Scalar.same_iff_equal.mpr equal
      · refine same_of_children root.kind container (nodup_entries ha) fun step => ?_
        have there := h [step]
        rw [at?_singleton, at?_singleton] at there
        generalize hx : a.child? step = v, hy : b.child? step = w at there
        cases there with
        | none => exact .none
        | some node =>
          exact .some (ih step _ hx (regular_child ha hx) (regular_child hb hy) (h.child hx hy))

theorem same_iff_samePaths (ha : a.regular Scalar.isComparable = true)
    (hb : b.regular Scalar.isComparable = true) : a.same b = true ↔ SamePaths a b :=
  ⟨samePaths_of_same, same_of_samePaths ha hb⟩

end Tree

open TenantSizing.Tree

/-- Being the same is an equivalence of trees, and goes by paths: the same ones lead through both
trees, to nodes of the same kind, and to scalars that are both null, the same boolean, the same
text, or numbers of the same exact value. So neither the order of entries nor the spelling of a
number matters, no boolean is a number, and what lies at any path or behind any keys is the same
again. -/
theorem sameness_goes_by_paths {a b : Tree} (ha : a.regular Scalar.isComparable = true)
    (hb : b.regular Scalar.isComparable = true) :
    a.same a = true ∧ a.same b = b.same a ∧
    (∀ c : Tree, c.regular Scalar.isComparable = true → a.same b = true → b.same c = true →
      a.same c = true) ∧
    (a.same b = true ↔ SamePaths a b) ∧
    (∀ a' b', Reordered a a' → Reordered b b' → a'.same b' = a.same b) ∧
    (a.same b = true →
      (∀ path flag, a.at? path = some (.bool flag) ↔ b.at? path = some (.bool flag)) ∧
      (∀ path, Option.Rel (fun x y => x.same y = true) (a.at? path) (b.at? path)) ∧
      ∀ keys, (a.follow keys).same (b.follow keys) = true) := by
  have paths := same_iff_samePaths ha hb
  refine ⟨?_, ?_, ?_, paths, ?_, ?_⟩
  · exact same_self ha
  · rw [Bool.eq_iff_iff, paths, same_iff_samePaths hb ha]
    exact ⟨.symm, .symm⟩
  · intro c hc first second
    rw [same_iff_samePaths ha hc]
    exact (paths.mp first).trans ((same_iff_samePaths hb hc).mp second)
  · intro a' b' first second
    exact (first.same second).symm
  · intro h
    refine ⟨fun path flag => ?_, same_at? h, same_follow h⟩
    have node := paths.mp h path
    generalize a.at? path = v, b.at? path = w at node
    cases node with
    | none => simp
    | some node => simpa using node.bool_iff flag

/-- A limit that no float can hold. -/
def Sample.limits : Tree :=
  .map [("limit", .int 9007199254740993), ("enabled", .bool true), ("replicas", .int 2)]

def Sample.limitsRespelled : Tree :=
  .map [("replicas", Sample.two), ("limit", .int 9007199254740993), ("enabled", .bool true)]

/-- The limit that is read if it is written with a fraction. -/
def Sample.limitsRounded : Tree :=
  .map [("limit", .scalar (.float (.finite false 1 53 (.inl rfl)))), ("enabled", .bool true),
    ("replicas", .int 2)]

theorem sameness_goes_by_paths_respelled :
    SamePaths Sample.limits Sample.limitsRespelled ∧
      Sample.limitsRespelled.same Sample.limits = true ∧
      ¬SamePaths Sample.limits Sample.limitsRounded := by
  obtain ⟨-, comm, -, paths, -⟩ := sameness_goes_by_paths
    (a := Sample.limits) (b := Sample.limitsRespelled) (by decide) (by decide)
  have same : Sample.limits.same Sample.limitsRespelled = true := by decide
  obtain ⟨-, -, -, apart, -⟩ := sameness_goes_by_paths
    (a := Sample.limits) (b := Sample.limitsRounded) (by decide) (by decide)
  refine ⟨paths.mp same, comm ▸ same, fun h => ?_⟩
  exact absurd (apart.mpr h) (by decide)

end TenantSizing
