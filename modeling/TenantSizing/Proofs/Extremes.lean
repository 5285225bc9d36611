import TenantSizing.Merge.Extreme
import TenantSizing.Proofs.Blend

namespace TenantSizing

namespace Extreme

/-- A pick gives one of the two. -/
theorem pick_eq (x : Extreme) (a b : Scalar) : x.pick a b = a ∨ x.pick a b = b := by
  cases x
  · by_cases h : b.above a = true <;> simp [pick, Scalar.larger, h]
  · by_cases h : a.above b = true <;> simp [pick, Scalar.smaller, h]

end Extreme

namespace Tree

variable {x y : Extreme}

theorem extremeMerge_of_same {current summary : Tree} (h : current.same summary = true) :
    current.extremeMerge x summary = current := by
  unfold extremeMerge
  rw [if_pos h]

theorem extremeMergeEntries_eq_map (current summary : Entries) :
    extremeMergeEntries x current summary = current.map fun entry =>
      (entry.1, extremeMerge x entry.2 ((summary.lookup entry.1).getD .null)) := by
  induction current with
  | nil => rfl
  | cons entry rest ih => simp [extremeMergeEntries, ih]

theorem extremeMerge_maps {cs ss : Entries} (h : (Tree.map cs).same (.map ss) = false) :
    (Tree.map cs).extremeMerge x (.map ss) =
      .map (extremeMergeEntries x cs ss ++ Keyed.without ss cs) := by
  unfold extremeMerge
  rw [h]
  rfl

theorem extremeMerge_lists {xs ys : List Tree} (h : (Tree.list xs).same (.list ys) = false) :
    (Tree.list xs).extremeMerge x (.list ys) = .list (extremeMergeItems x xs ys) := by
  unfold extremeMerge
  rw [h]
  rfl

theorem extremeMerge_scalars {a b : Scalar} (h : (Tree.scalar a).same (.scalar b) = false)
    (ha : a ≠ .null) (hb : b ≠ .null) :
    (Tree.scalar a).extremeMerge x (.scalar b) = .scalar (x.pick a b) := by
  unfold extremeMerge
  rw [h]
  cases b <;> cases a <;> first | rfl | contradiction

@[simp] theorem extremeMerge_null (current : Tree) : current.extremeMerge x .null = current := by
  by_cases h : current.same .null = true
  · exact extremeMerge_of_same h
  · unfold extremeMerge
    rw [if_neg h]

@[simp] theorem null_extremeMerge (summary : Tree) :
    Tree.null.extremeMerge x summary = summary := by
  by_cases h : Tree.null.same summary = true
  · rw [extremeMerge_of_same h]
    rw [same_null] at h
    exact (isNull_iff.mp h).symm
  · unfold extremeMerge
    rw [if_neg h]
    cases summary with
    | scalar value => cases value <;> rfl
    | list items => rfl
    | map entries => rfl

/-- Trees of two kinds, or one without anything to merge: the current tree stays. -/
theorem extremeMerge_clash {current summary : Tree} (hk : current.kind ≠ summary.kind)
    (hc : current ≠ .null) : current.extremeMerge x summary = current := by
  by_cases h : current.same summary = true
  · exact extremeMerge_of_same h
  · unfold extremeMerge
    rw [if_neg h]
    cases summary with
    | scalar value => cases value <;> cases current <;> simp_all [kind]
    | list ys => cases current <;> simp_all [kind]
    | map ss => cases current <;> simp_all [kind]

/-- The ways in which a merge comes to its result. -/
theorem extremeMerge_cases {motive : Tree → Prop} {current summary : Tree}
    (kept : (∀ z, current.extremeMerge z summary = current) → motive current)
    (adopted : current = .null → motive summary)
    (maps : ∀ cs ss, current = .map cs → summary = .map ss →
      motive (.map (extremeMergeEntries x cs ss ++ Keyed.without ss cs)))
    (lists : ∀ xs ys, current = .list xs → summary = .list ys →
      motive (.list (extremeMergeItems x xs ys)))
    (scalars : ∀ a b, current = .scalar a → summary = .scalar b →
      (∀ z, current.extremeMerge z summary = .scalar (z.pick a b)) →
      motive (.scalar (x.pick a b))) :
    motive (current.extremeMerge x summary) := by
  by_cases hs : current.same summary = true
  · rw [extremeMerge_of_same hs]
    exact kept fun z => extremeMerge_of_same hs
  by_cases hc : current = .null
  · subst hc
    rw [null_extremeMerge]
    exact adopted rfl
  by_cases hn : summary = .null
  · subst hn
    rw [extremeMerge_null]
    exact kept fun z => extremeMerge_null current
  by_cases hk : current.kind = summary.kind
  · have hs : current.same summary = false := by simpa using hs
    cases current with
    | map cs =>
      cases summary with
      | map ss => rw [extremeMerge_maps hs]; exact maps cs ss rfl rfl
      | list ys => simp [kind] at hk
      | scalar b => simp [kind] at hk
    | list xs =>
      cases summary with
      | list ys => rw [extremeMerge_lists hs]; exact lists xs ys rfl rfl
      | map ss => simp [kind] at hk
      | scalar b => simp [kind] at hk
    | scalar a =>
      cases summary with
      | map ss => simp [kind] at hk
      | list ys => simp [kind] at hk
      | scalar b =>
        have ha : a ≠ .null := fun he => hc (by rw [he])
        have hb : b ≠ .null := fun he => hn (by rw [he])
        rw [extremeMerge_scalars hs ha hb]
        exact scalars a b rfl rfl fun z => extremeMerge_scalars hs ha hb
  · rw [extremeMerge_clash hk hc]
    exact kept fun z => extremeMerge_clash hk hc

theorem extremeMergeItems_eq_align (xs ys : List Tree) :
    extremeMergeItems x xs ys = align (extremeMerge x) xs ys := by
  induction xs generalizing ys with
  | nil => cases ys <;> rfl
  | cons first xs ih =>
    cases ys with
    | nil => rfl
    | cons second ys => rw [extremeMergeItems, align, ih]

theorem blend_extremeMerge (current summary : Tree) :
    Blend gives current summary (current.extremeMerge x summary) := by
  induction current using induct_members generalizing summary with
  | node current items values =>
    apply extremeMerge_cases (motive := Blend gives current summary)
    · intro _
      exact .first _ _
    · intro he
      exact .second (.inl he)
    · rintro cs ss rfl rfl
      rw [extremeMergeEntries_eq_map]
      exact .maps (fun k v => extremeMerge x v ((ss.lookup k).getD .null))
        fun entry he => values entry he _
    · rintro xs ys rfl rfl
      rw [extremeMergeItems_eq_align]
      exact .lists _ fun item hi other _ => items item hi other
    · rintro a b rfl rfl _
      rcases x.pick_eq a b with hk | hk
      · rw [hk]
        exact .first _ _
      · rw [hk]
        exact .second (.inr rfl)

theorem get_extremeMerge {current summary : Tree} (hc : current.isMap = true)
    (hs : summary.isMap = true) (key : String) :
    (current.extremeMerge x summary).get key =
      (current.get key).extremeMerge x (summary.get key) := by
  by_cases h : current.same summary = true
  · rw [extremeMerge_of_same h, extremeMerge_of_same (same_get h key)]
  · obtain ⟨cs, rfl⟩ := isMap_iff.mp hc
    obtain ⟨ss, rfl⟩ := isMap_iff.mp hs
    rw [extremeMerge_maps (by simpa using h), get_map, get_map, get_map, Keyed.lookup_append,
      extremeMergeEntries_eq_map,
      Keyed.lookup_map cs fun k v => extremeMerge x v ((ss.lookup k).getD .null),
      Keyed.lookup_without]
    cases hl : cs.lookup key with
    | some c => simp
    | none => simp [Keyed.has, hl]

end Tree

end TenantSizing
