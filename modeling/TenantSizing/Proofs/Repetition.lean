import TenantSizing.Proofs.Alike
import TenantSizing.Proofs.Conformance

namespace TenantSizing

namespace Tree

variable {policy : MergePolicy} {key : Option String}

theorem merge_self_scalar (value : Scalar) :
    (Tree.scalar value).merge policy key (.scalar value) = .scalar value := by
  apply merge_cases (motive := fun result => result = .scalar value)
  · rfl
  · intro _
    rfl
  · rintro cs rs ⟨⟩
  · rintro xs ys ⟨⟩
  · rintro a b ⟨⟩ ⟨⟩
    rw [(resolve_eq policy key value value).elim id id]

theorem merge_scalars_again (a b : Scalar) :
    ((Tree.scalar a).merge policy key (.scalar b)).merge policy key (.scalar b) =
      (Tree.scalar a).merge policy key (.scalar b) := by
  by_cases hs : (Tree.scalar a).same (.scalar b) = true
  · rw [merge_of_same hs, merge_self_scalar]
  by_cases ha : a = .null
  · rw [ha, null_merge, merge_self_scalar]
  by_cases hb : b = .null
  · rw [hb, merge_null, merge_null]
  · have merged : (Tree.scalar a).merge policy key (.scalar b) =
        .scalar (policy.resolve key a b) := merge_scalars (by simpa using hs) ha hb
    rw [merged]
    rcases resolve_eq policy key a b with hr | hr
    · rw [hr] at merged ⊢
      exact merged
    · rw [hr, merge_self_scalar]

/-- A request that has not made a tree one of its kind leaves it from then on. -/
theorem merge_again_of_kind_ne {held wanted : Tree}
    (hk : (held.merge policy key wanted).kind ≠ wanted.kind) :
    (held.merge policy key wanted).merge policy key wanted = held.merge policy key wanted := by
  refine merge_clash hk fun he => hk ?_
  rw [(pointwise_merge policy).filled key he, null_merge]

/-- Merging a request again gives the same up to the order of entries. -/
theorem alike_merge_again (held wanted : Tree) :
    Alike (held.merge policy key wanted)
      ((held.merge policy key wanted).merge policy key wanted) := by
  have merges := pointwise_merge policy
  have nothing : ∀ key (held : Tree), Alike (held.merge policy key .null)
      ((held.merge policy key .null).merge policy key .null) := fun key held => by
    rw [merge_null, merge_null]
    exact .refl held
  induction wanted generalizing held key with
  | scalar value =>
    by_cases hv : value = .null
    · rw [hv]
      exact nothing key held
    cases held with
    | scalar current =>
      rw [merge_scalars_again]
      exact .refl _
    | list items =>
      rw [merge_clash (by simp [kind]) (by simp), merge_clash (by simp [kind]) (by simp)]
      exact .refl _
    | map entries =>
      rw [merge_clash (by simp [kind]) (by simp), merge_clash (by simp [kind]) (by simp)]
      exact .refl _
  | list items ih =>
    cases hl : (held.merge policy key (.list items)).isList with
    | true =>
      have hh := merges.list_or_null key hl
      refine .of_lists hl ((merges.isList key (ne_null_of_isList hl)).trans hl) ?_ fun i => ?_
      · rw [merges.length key (.inl hl), merges.length key hh]
        omega
      · rw [merges.item key (.inl hl), merges.item key hh]
        refine forall_item (P := fun wanted => ∀ held : Tree, Alike (held.merge policy key wanted)
          ((held.merge policy key wanted).merge policy key wanted)) ?_ (nothing key) i _
        exact fun item hi held => ih item hi held
    | false =>
      rw [merge_again_of_kind_ne fun hk => by rw [isList_iff_kind.mpr hk] at hl; cases hl]
      exact .refl _
  | map entries ih =>
    cases hm : (held.merge policy key (.map entries)).isMap with
    | true =>
      have hh := merges.map_or_null key hm
      refine .of_maps hm ((merges.isMap key (ne_null_of_isMap hm)).trans hm) (fun name => ?_)
        fun name => ?_
      · rw [merges.has key (.inl hm), merges.has key hh, Bool.or_assoc, Bool.or_self]
      · rw [merges.get key (.inl hm), merges.get key hh]
        refine forall_get (P := fun wanted => ∀ held : Tree,
          Alike (held.merge policy (some name) wanted)
            ((held.merge policy (some name) wanted).merge policy (some name) wanted)) ?_
          (nothing (some name)) name _
        exact fun entry he held => ih entry he held
    | false =>
      rw [merge_again_of_kind_ne fun hk => by rw [isMap_iff_kind.mpr hk] at hm; cases hm]
      exact .refl _

section Released

variable {allow : String → Tree → Bool → Bool} {rules : Entries} {reset : List String} {tree : Tree}
  {pass : Scalar → Bool}

theorem Conforms.get (h : Conforms allow rules tree) (name : String) :
    Conforms allow (ruleAt rules name).entries (tree.get name) := by
  cases tree with
  | map entries => exact h.lookup name
  | list items => exact conforms_null
  | scalar value => exact conforms_null

theorem Conforms.allowed (h : Conforms allow rules tree) {name : String}
    (hn : tree.has name = true) : allow name (ruleAt rules name) (tree.get name).isMap = true := by
  cases tree with
  | map entries =>
    obtain ⟨value, hl⟩ := has_iff.mp hn
    rw [get_map, hl]
    exact (conforms_map.mp h _ (Keyed.mem_of_lookup hl)).1
  | list items => cases hn
  | scalar value => cases hn

end Released

/-- One round: the tree is released, the request is merged into it, and the result is brought to the
level of the summary. -/
def settle (policy : MergePolicy) (x : Extreme) (key : Option String) (rules : Entries)
    (wanted summed tree : Tree) : Tree :=
  ((tree.dropManaged resetKeys rules).merge policy key wanted).extremeMerge x summed

section Round

variable {x : Extreme} {rules : Entries} {held wanted summed : Tree} {pass : Scalar → Bool}

end Round

end Tree

end TenantSizing
