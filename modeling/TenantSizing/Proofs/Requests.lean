import TenantSizing.Merge.Fill
import TenantSizing.Merge.Filtered
import TenantSizing.Proofs.Blend

namespace TenantSizing

namespace Tree

variable {policy : MergePolicy} {key : Option String}

theorem merge_of_same {current request : Tree} (h : current.same request = true) :
    current.merge policy key request = request := by
  unfold merge
  rw [if_pos h]

theorem mergeEntries_eq_map (current request : Entries) :
    mergeEntries policy current request = current.map fun entry =>
      (entry.1, merge policy (some entry.1) entry.2 ((request.lookup entry.1).getD .null)) := by
  induction current with
  | nil => rfl
  | cons entry rest ih => simp [mergeEntries, ih]

theorem mergeItems_eq_align (xs ys : List Tree) :
    mergeItems policy key xs ys = align (merge policy key) xs ys := by
  induction xs generalizing ys with
  | nil => cases ys <;> rfl
  | cons first xs ih =>
    cases ys with
    | nil => rfl
    | cons second ys => rw [mergeItems, align, ih]

theorem merge_maps {cs rs : Entries} (h : (Tree.map cs).same (.map rs) = false) :
    (Tree.map cs).merge policy key (.map rs) =
      .map (mergeEntries policy cs rs ++ Keyed.without rs cs) := by
  unfold merge
  rw [h]
  rfl

theorem merge_lists {xs ys : List Tree} (h : (Tree.list xs).same (.list ys) = false) :
    (Tree.list xs).merge policy key (.list ys) = .list (mergeItems policy key xs ys) := by
  unfold merge
  rw [h]
  rfl

theorem merge_scalars {a b : Scalar} (h : (Tree.scalar a).same (.scalar b) = false)
    (ha : a ≠ .null) (hb : b ≠ .null) :
    (Tree.scalar a).merge policy key (.scalar b) = .scalar (policy.resolve key a b) := by
  unfold merge
  rw [h]
  cases b <;> cases a <;> first | rfl | contradiction

@[simp] theorem merge_null (current : Tree) : current.merge policy key .null = current := by
  by_cases h : current.same .null = true
  · rw [merge_of_same h]
    have hk := same_kind h
    cases current with
    | scalar value => cases value <;> first | rfl | cases h
    | list items => cases hk
    | map entries => cases hk
  · unfold merge
    rw [if_neg h]

@[simp] theorem null_merge (request : Tree) : Tree.null.merge policy key request = request := by
  by_cases h : Tree.null.same request = true
  · exact merge_of_same h
  · unfold merge
    rw [if_neg h]
    cases request with
    | scalar value => cases value <;> rfl
    | list items => rfl
    | map entries => rfl

/-- A request of another kind than there is leaves the current tree. -/
theorem merge_clash {current request : Tree} (hk : current.kind ≠ request.kind)
    (hc : current ≠ .null) : current.merge policy key request = current := by
  have h : ¬current.same request = true := fun h => hk (same_kind h)
  unfold merge
  rw [if_neg h]
  cases request with
  | scalar value => cases value <;> cases current <;> simp_all [kind]
  | list ys => cases current <;> simp_all [kind]
  | map rs => cases current <;> simp_all [kind]

/-- The ways in which a merge comes to its result. -/
theorem merge_cases {motive : Tree → Prop} {current request : Tree}
    (kept : motive current)
    (taken : current = .null ∨ current.same request = true → motive request)
    (maps : ∀ cs rs, current = .map cs → request = .map rs →
      motive (.map (mergeEntries policy cs rs ++ Keyed.without rs cs)))
    (lists : ∀ xs ys, current = .list xs → request = .list ys →
      motive (.list (mergeItems policy key xs ys)))
    (scalars : ∀ a b, current = .scalar a → request = .scalar b →
      motive (.scalar (policy.resolve key a b))) :
    motive (current.merge policy key request) := by
  by_cases hs : current.same request = true
  · rw [merge_of_same hs]
    exact taken (.inr hs)
  by_cases hc : current = .null
  · rw [hc, null_merge]
    exact taken (.inl hc)
  by_cases hn : request = .null
  · rw [hn, merge_null]
    exact kept
  by_cases hk : current.kind = request.kind
  · have hs : current.same request = false := by simpa using hs
    cases current with
    | map cs =>
      cases request with
      | map rs => rw [merge_maps hs]; exact maps cs rs rfl rfl
      | list ys => cases hk
      | scalar b => cases hk
    | list xs =>
      cases request with
      | list ys => rw [merge_lists hs]; exact lists xs ys rfl rfl
      | map rs => cases hk
      | scalar b => cases hk
    | scalar a =>
      cases request with
      | map rs => cases hk
      | list ys => cases hk
      | scalar b =>
        rw [merge_scalars hs (fun he => hc (by rw [he])) (fun he => hn (by rw [he]))]
        exact scalars a b rfl rfl
  · rw [merge_clash hk hc]
    exact kept

theorem resolve_eq (policy : MergePolicy) (key : Option String) (a b : Scalar) :
    policy.resolve key a b = a ∨ policy.resolve key a b = b := by
  unfold MergePolicy.resolve
  split
  · exact .inr rfl
  · split
    · unfold Scalar.larger
      split
      · exact .inr rfl
      · exact .inl rfl
    · exact .inl rfl

theorem blend_merge (current request : Tree) :
    Blend gives current request (current.merge policy key request) := by
  induction current using induct_members generalizing request key with
  | node current items values =>
    apply merge_cases (motive := Blend gives current request)
    · exact .first _ _
    · intro h
      exact .second (gives_of_taken h)
    · rintro cs rs rfl rfl
      rw [mergeEntries_eq_map]
      exact .maps (fun k v => merge policy (some k) v ((rs.lookup k).getD .null))
        fun entry he => values entry he _
    · rintro xs ys rfl rfl
      rw [mergeItems_eq_align]
      exact .lists _ fun item hi other _ => items item hi other
    · rintro a b rfl rfl
      rcases resolve_eq policy key a b with hk | hk
      · rw [hk]
        exact .first _ _
      · rw [hk]
        exact .second (.inr rfl)

theorem get_merge {current request : Tree} (hc : current.isMap = true)
    (hr : request.isMap = true) (name : String) :
    (current.merge policy key request).get name =
      (current.get name).merge policy (some name) (request.get name) := by
  by_cases h : current.same request = true
  · rw [merge_of_same h, merge_of_same (same_get h name)]
  · obtain ⟨cs, rfl⟩ := isMap_iff.mp hc
    obtain ⟨rs, rfl⟩ := isMap_iff.mp hr
    rw [merge_maps (by simpa using h), get_map, get_map, get_map, Keyed.lookup_append,
      mergeEntries_eq_map,
      Keyed.lookup_map cs fun k v => merge policy (some k) v ((rs.lookup k).getD .null),
      Keyed.lookup_without]
    cases hl : cs.lookup name with
    | some c => simp
    | none => simp [Keyed.has, hl]

theorem fillEntries_eq_map (template explicit : Entries) :
    fillEntries template explicit = template.map fun entry =>
      (entry.1, fill entry.2 ((explicit.lookup entry.1).getD .null)) := by
  induction template with
  | nil => rfl
  | cons entry rest ih => simp [fillEntries, ih]

theorem fillItems_eq_align (xs ys : List Tree) : fillItems xs ys = align fill xs ys := by
  induction xs generalizing ys with
  | nil => cases ys <;> rfl
  | cons first xs ih =>
    cases ys with
    | nil => rfl
    | cons second ys => rw [fillItems, align, ih]

/-- Filling from a template blends the two trees; the explicit one may stand anywhere. -/
theorem blend_fill (template explicit : Tree) :
    Blend (fun _ _ => True) template explicit (template.fill explicit) := by
  induction template using induct_members generalizing explicit with
  | node template items values =>
    unfold fill
    split
    · exact .first _ _
    · exact .second trivial
    · rename_i ts es
      rw [fillEntries_eq_map]
      exact .maps (fun k v => fill v ((es.lookup k).getD .null)) fun entry he => values entry he _
    · rename_i xs ys
      rw [fillItems_eq_align]
      exact .lists _ fun item hi other _ => items item hi other
    · exact .second trivial

end Tree

end TenantSizing
