import TenantSizing.Proofs.Agreement
import TenantSizing.Proofs.Places
import TenantSizing.Proofs.Reordering

namespace TenantSizing

namespace Tree

variable {a b c d : Tree} {f : Option String → Tree → Tree → Tree}

namespace Placewise

variable (h : Placewise f) (key : Option String)

include h

theorem alike_of_kind_ne (ha : Alike a b) (hc : Alike c d) (hk : a.kind ≠ c.kind) :
    Alike (f key a c) (f key b d) := by
  by_cases hn : a = .null
  · rw [ha.null_iff.mp hn, hn, h.null_left, h.null_left]
    exact hc
  by_cases hm : c = .null
  · rw [hc.null_iff.mp hm, hm, h.null_right, h.null_right]
    exact ha
  have hk' : b.kind ≠ d.kind := ha.kind ▸ hc.kind ▸ hk
  have hn' : b ≠ .null := fun he => hn (ha.null_iff.mpr he)
  have hm' : d ≠ .null := fun he => hm (hc.null_iff.mpr he)
  rcases h.clash with first | second
  · rw [first _ _ _ hk hn hm, first _ _ _ hk' hn' hm']
    exact ha
  · rw [second _ _ _ hk hn hm, second _ _ _ hk' hn' hm']
    exact hc

/-- Merges of alike trees are alike, by induction on the first side. -/
theorem alike (ha : Alike a b) (hc : Alike c d) : Alike (f key a c) (f key b d) := by
  induction ha generalizing key c d with
  | scalars value =>
    by_cases hk : (Tree.scalar value).kind = c.kind
    · cases hc with
      | scalars other => exact .refl _
      | lists length items => cases hk
      | maps keys values => cases hk
    · exact h.alike_of_kind_ne key (.scalars value) hc hk
  | lists length items ih =>
    rename_i xs ys
    by_cases hk : (Tree.list xs).kind = c.kind
    · have hl : c.isList = true := isList_iff_kind.mpr hk.symm
      have hm : d.isList = true := hc.isList ▸ hl
      refine .of_lists (h.lists _ _ _ rfl hl) (h.lists _ _ _ rfl hm) ?_ fun i => ?_
      · rw [h.lists_length _ _ _ rfl hl, h.lists_length _ _ _ rfl hm, hc.length]
        exact congrArg (max · _) length
      · rw [h.lists_item _ _ _ rfl hl, h.lists_item _ _ _ rfl hm]
        exact ih i key (hc.item i)
    · exact h.alike_of_kind_ne key (.lists length items) hc hk
  | maps keys values ih =>
    rename_i xs ys
    by_cases hk : (Tree.map xs).kind = c.kind
    · have hl : c.isMap = true := isMap_iff_kind.mpr hk.symm
      have hm : d.isMap = true := hc.isMap ▸ hl
      refine .of_maps (h.maps _ _ _ rfl hl) (h.maps _ _ _ rfl hm) (fun name => ?_) fun name => ?_
      · rw [h.maps_has _ _ _ rfl hl, h.maps_has _ _ _ rfl hm, hc.has, keys]
      · rw [h.maps_get _ _ _ rfl hl, h.maps_get _ _ _ rfl hm]
        exact ih name _ (hc.get name)
    · exact h.alike_of_kind_ne key (.maps keys values) hc hk

end Placewise

@[simp] theorem fill_null (template : Tree) : template.fill .null = template := by
  unfold fill
  rfl

@[simp] theorem null_fill (explicit : Tree) : Tree.null.fill explicit = explicit := by
  unfold fill
  cases explicit with
  | scalar value => cases value <;> rfl
  | list items => rfl
  | map entries => rfl

theorem fill_clash {template explicit : Tree} (hk : template.kind ≠ explicit.kind)
    (ht : template ≠ .null) (he : explicit ≠ .null) : template.fill explicit = explicit := by
  unfold fill
  cases explicit with
  | scalar value => cases value <;> cases template <;> simp_all [Tree.kind]
  | list items => cases template <;> simp_all [Tree.kind]
  | map entries => cases template <;> simp_all [Tree.kind]

theorem fill_maps (ts es : Entries) :
    (Tree.map ts).fill (.map es) = .map (ts.map (fun entry =>
      (entry.1, fill entry.2 ((es.lookup entry.1).getD .null))) ++ Keyed.without es ts) := by
  rw [← fillEntries_eq_map]
  unfold fill
  rfl

theorem fill_lists (xs ys : List Tree) :
    (Tree.list xs).fill (.list ys) = .list (align fill xs ys) := by
  rw [← fillItems_eq_align]
  unfold fill
  rfl

/-- Unlike the other merges, filling keeps the second side where the two are of different kinds. -/
theorem placewise_fill : Placewise fun _ => fill where
  null_left _ := null_fill
  null_right _ := fill_null
  clash := .inr fun _ _ _ => fill_clash
  maps _ a b ha hb := by
    obtain ⟨ts, rfl⟩ := isMap_iff.mp ha
    obtain ⟨es, rfl⟩ := isMap_iff.mp hb
    rw [fill_maps]
    rfl
  maps_has _ a b ha hb name := by
    obtain ⟨ts, rfl⟩ := isMap_iff.mp ha
    obtain ⟨es, rfl⟩ := isMap_iff.mp hb
    rw [fill_maps]
    exact has_unite (fun k v => fill v ((es.lookup k).getD .null)) name
  maps_get _ a b ha hb name := by
    obtain ⟨ts, rfl⟩ := isMap_iff.mp ha
    obtain ⟨es, rfl⟩ := isMap_iff.mp hb
    rw [fill_maps, get_map, get_map, get_map, Keyed.lookup_append,
      Keyed.lookup_map ts fun k v => fill v ((es.lookup k).getD .null), Keyed.lookup_without]
    cases hl : ts.lookup name with
    | some t => simp
    | none => simp [Keyed.has, hl]
  lists _ a b ha hb := by
    obtain ⟨xs, rfl⟩ := isList_iff.mp ha
    obtain ⟨ys, rfl⟩ := isList_iff.mp hb
    rw [fill_lists]
    rfl
  lists_length _ a b ha hb := by
    obtain ⟨xs, rfl⟩ := isList_iff.mp ha
    obtain ⟨ys, rfl⟩ := isList_iff.mp hb
    rw [fill_lists]
    exact length_align _ xs ys
  lists_item _ a b ha hb i := by
    obtain ⟨xs, rfl⟩ := isList_iff.mp ha
    obtain ⟨ys, rfl⟩ := isList_iff.mp hb
    rw [fill_lists]
    exact item_align null_fill fill_null xs ys i

namespace Reordered

theorem merge (policy : MergePolicy) (key : Option String) (h : Reordered a b)
    (hs : Reordered c d) : Reordered (a.merge policy key c) (b.merge policy key d) :=
  ⟨(pointwise_merge policy).placewise.alike key h.alike hs.alike,
    (blend_merge a c).regular h.first hs.first rfl,
    (blend_merge b d).regular h.second hs.second rfl⟩

theorem extremeMerge (x : Extreme) (h : Reordered a b) (hs : Reordered c d) :
    Reordered (a.extremeMerge x c) (b.extremeMerge x d) :=
  ⟨(pointwise_extremeMerge x).placewise.alike none h.alike hs.alike,
    (blend_extremeMerge a c).regular h.first hs.first rfl,
    (blend_extremeMerge b d).regular h.second hs.second rfl⟩

theorem fill (h : Reordered a b) (hs : Reordered c d) : Reordered (a.fill c) (b.fill d) :=
  ⟨placewise_fill.alike none h.alike hs.alike, (blend_fill _ _).regular h.first hs.first rfl,
    (blend_fill _ _).regular h.second hs.second rfl⟩

end Reordered

variable {rules rules' : Entries}

theorem alike_ruleAt (hr : Alike (.map rules) (.map rules')) (key : String) :
    Alike (ruleAt rules key) (ruleAt rules' key) :=
  hr.get key

theorem alike_prune (h : Alike a b) (first : a.distinct = true) (second : b.distinct = true)
    (hr : Alike (.map rules) (.map rules')) : Alike (a.prune rules) (b.prune rules') := by
  induction h generalizing rules rules' with
  | scalars value => exact .scalars value
  | lists length items => exact .lists length items
  | maps keys values ih =>
    rw [prune_map, prune_map]
    refine Alike.select (.maps keys values) (regular_map.mp first).1 (regular_map.mp second).1
      (fun key => ?_) fun key => ?_
    · have rule := alike_ruleAt hr key
      simp only [admits, rule.isNull, rule.isMap, (values key).isMap]
    · exact ih key (regular_get first rfl key) (regular_get second rfl key)
        (alike_ruleAt hr key).entries

theorem alike_dropManaged (reset : List String) (h : Alike a b) (first : a.distinct = true)
    (second : b.distinct = true) (hr : Alike (.map rules) (.map rules')) :
    Alike (a.dropManaged reset rules) (b.dropManaged reset rules') := by
  induction h generalizing rules rules' with
  | scalars value => exact .scalars value
  | lists length items => exact .lists length items
  | maps keys values ih =>
    rw [dropManaged_map, dropManaged_map]
    refine Alike.select (.maps keys values) (regular_map.mp first).1 (regular_map.mp second).1
      (fun key => ?_) fun key => ?_
    · simp only [released, (alike_ruleAt hr key).isNull, (values key).isMap]
    · exact ih key (regular_get first rfl key) (regular_get second rfl key)
        (alike_ruleAt hr key).entries

theorem alike_updateMap {change change' : Entries → Entries}
    (hc : ∀ xs ys, Alike (.map xs) (.map ys) → Alike (.map (change xs)) (.map (change' ys)))
    (keys : List String) (h : Alike a b) :
    Alike (a.updateMap keys change) (b.updateMap keys change') := by
  induction keys generalizing a b with
  | nil =>
    cases h with
    | scalars value => exact .scalars value
    | lists length items => exact .lists length items
    | maps keys values => exact hc _ _ (.maps keys values)
  | cons key keys ih =>
    cases h with
    | scalars value => exact .scalars value
    | lists length items => exact .lists length items
    | maps there values =>
      rename_i xs ys
      have whole : Alike (.map xs) (.map ys) := .maps there values
      have value : Option.Rel Alike (xs.lookup key) (ys.lookup key) := whole.lookup key
      unfold updateMap
      generalize xs.lookup key = v, ys.lookup key = w at value
      cases value with
      | none => exact whole
      | some alike => exact whole.insert (ih alike) key

namespace Reordered

theorem prune (h : Reordered a b) (hr : Alike (.map rules) (.map rules')) :
    Reordered (a.prune rules) (b.prune rules') :=
  ⟨alike_prune h.alike h.first h.second hr, regular_prune h.first rules,
    regular_prune h.second rules'⟩

theorem dropManaged (reset : List String) (h : Reordered a b)
    (hr : Alike (.map rules) (.map rules')) :
    Reordered (a.dropManaged reset rules) (b.dropManaged reset rules') :=
  ⟨alike_dropManaged reset h.alike h.first h.second hr, regular_dropManaged h.first rules,
    regular_dropManaged h.second rules'⟩

theorem filteredMerge (policy : MergePolicy) (overwrite : Bool) (h : Reordered a b)
    (hs : Reordered c d) (hr : Alike (.map rules) (.map rules')) :
    Reordered (a.filteredMerge policy rules overwrite c)
      (b.filteredMerge policy rules' overwrite d) := by
  unfold Tree.filteredMerge
  split
  · exact h.merge policy none hs
  · exact (h.prune hr).merge policy none (hs.prune hr)

theorem dropCpuLimit (h : Reordered a b) : Reordered a.dropCpuLimit b.dropCpuLimit := by
  refine ⟨alike_updateMap (fun xs ys alike => .of_lookup fun key => ?_) _ h.alike,
    regular_dropCpuLimit h.first, regular_dropCpuLimit h.second⟩
  rw [Keyed.lookup_erase, Keyed.lookup_erase]
  split
  · exact .none
  · exact alike.lookup key

/-- Pruning by rules that nobody has checked succeeds for both or for neither. -/
theorem pruneBy (h : Reordered a b) (hr : Reordered c d) :
    Agree Reordered (a.pruneBy c) (b.pruneBy d) := by
  have truthy := h.alike.truthy
  have pruned := h.prune hr.alike.entries
  obtain ⟨alike, -, -⟩ := h
  unfold Tree.pruneBy
  cases alike with
  | scalars value => exact .fails _
  | lists length items => exact .fails _
  | maps keys values =>
    rename_i xs ys
    have empty : xs.isEmpty = ys.isEmpty := Bool.not_inj truthy
    dsimp only
    rw [empty, hr.alike.truthy, hr.alike.isMap]
    split
    · exact .ok pruned
    · exact .fails _

end Reordered

end Tree

end TenantSizing
