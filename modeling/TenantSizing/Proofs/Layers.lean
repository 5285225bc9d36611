import TenantSizing.Merge.Managed
import TenantSizing.Proofs.Conformance
import TenantSizing.Proofs.Rework
import TenantSizing.Tree.Depth

namespace TenantSizing

namespace Tree

variable {pass : Scalar → Bool} {n : Nat} {a b r tree : Tree} {entries : Entries}

theorem regular_empty : (Tree.map []).regular pass = true := by
  simp [regular_map, Keyed.keys]

theorem regular_updateMap {keys : List String} {change : Entries → Entries}
    (hc : ∀ entries, regular pass (.map entries) = true →
      regular pass (.map (change entries)) = true)
    (h : tree.regular pass = true) : (tree.updateMap keys change).regular pass = true := by
  induction keys generalizing tree with
  | nil =>
    cases tree with
    | map entries => exact hc entries h
    | list items => exact h
    | scalar value => exact h
  | cons key keys ih =>
    cases tree with
    | map entries =>
      rw [updateMap]
      split
      · rename_i value hl
        have hv := (regular_map.mp h).2 _ (Keyed.mem_of_lookup hl)
        exact regular_insert h (ih hv)
      · exact h
    | list items => exact h
    | scalar value => exact h

theorem regular_dropCpuLimit (h : tree.regular pass = true) :
    tree.dropCpuLimit.regular pass = true :=
  regular_updateMap (fun _ he => regular_sublist he List.filter_sublist) h

theorem depth_insert_le {value : Tree} (h : (Tree.map entries).depth ≤ n + 1) (hv : value.depth ≤ n)
    (key : String) : (Tree.map (Keyed.insert entries key value)).depth ≤ n + 1 := by
  refine depth_map_le.mpr fun entry he => ?_
  rcases Keyed.mem_insert he with rfl | he
  · exact hv
  · exact depth_map_le.mp h entry he

theorem depth_select_le {keep : String × Tree → Bool} {change : String × Tree → Tree}
    (hc : ∀ entry ∈ entries, (change entry).depth ≤ n) :
    (Tree.map (select keep change entries)).depth ≤ n + 1 := by
  refine depth_map_le.mpr fun entry he => ?_
  obtain ⟨before, hm, -, rfl⟩ := mem_select he
  exact hc before hm

theorem exists_of_depth_map_le (h : (Tree.map entries).depth ≤ n) :
    ∃ m, n = m + 1 ∧ ∀ entry ∈ entries, entry.2.depth ≤ m := by
  cases n with
  | zero => simp [depth] at h
  | succ m => exact ⟨m, rfl, depth_map_le.mp h⟩

theorem exists_of_depth_list_le {items : List Tree} (h : (Tree.list items).depth ≤ n) :
    ∃ m, n = m + 1 ∧ ∀ item ∈ items, item.depth ≤ m := by
  cases n with
  | zero => simp [depth] at h
  | succ m => exact ⟨m, rfl, depth_list_le.mp h⟩

/-- A blend nests no deeper than the deeper one of the two trees. -/
theorem Blend.depth_le {takes : Tree → Tree → Prop} (h : Blend takes a b r) (ha : a.depth ≤ n)
    (hb : b.depth ≤ n) : r.depth ≤ n := by
  induction h generalizing n with
  | first a b => exact ha
  | second h => exact hb
  | lists f items ih =>
    obtain ⟨m, rfl, hx⟩ := exists_of_depth_list_le ha
    have hy := depth_list_le.mp hb
    refine depth_list_le.mpr fun item hi => ?_
    rcases mem_align hi with hi | hi | ⟨x, hxs, y, hys, rfl⟩
    · exact hx item hi
    · exact hy item hi
    · exact ih x hxs y hys (hx x hxs) (hy y hys)
  | maps f values ih =>
    rename_i cs ss
    obtain ⟨m, rfl, hc⟩ := exists_of_depth_map_le ha
    have hs := depth_map_le.mp hb
    refine depth_map_le.mpr fun entry he => ?_
    rcases List.mem_append.mp he with he | he
    · obtain ⟨current, hm, rfl⟩ := List.mem_map.mp he
      refine ih current hm (hc current hm) ?_
      cases hl : ss.lookup current.1 with
      | none => exact Nat.zero_le m
      | some value => exact hs _ (Keyed.mem_of_lookup hl)
    · exact hs entry (Keyed.mem_without.mp he).1

theorem depth_dropManaged_le (reset : List String) (rules : Entries) (h : tree.depth ≤ n) :
    (tree.dropManaged reset rules).depth ≤ n := by
  induction tree generalizing rules n with
  | scalar value => exact h
  | list items ih => exact h
  | map entries ih =>
    obtain ⟨m, rfl, hv⟩ := exists_of_depth_map_le h
    rw [dropManaged_map]
    exact depth_select_le fun entry he => ih entry he _ (hv entry he)

theorem depth_prune_le (rules : Entries) (h : tree.depth ≤ n) : (tree.prune rules).depth ≤ n := by
  induction tree generalizing rules n with
  | scalar value => exact h
  | list items ih => exact h
  | map entries ih =>
    obtain ⟨m, rfl, hv⟩ := exists_of_depth_map_le h
    rw [prune_map]
    exact depth_select_le fun entry he => ih entry he _ (hv entry he)

theorem depth_updateMap_le {keys : List String} {change : Entries → Entries}
    (hc : ∀ n entries, (Tree.map entries).depth ≤ n → (Tree.map (change entries)).depth ≤ n)
    (h : tree.depth ≤ n) : (tree.updateMap keys change).depth ≤ n := by
  induction keys generalizing tree n with
  | nil =>
    cases tree with
    | map entries => exact hc n entries h
    | list items => exact h
    | scalar value => exact h
  | cons key keys ih =>
    cases tree with
    | map entries =>
      rw [updateMap]
      split
      · rename_i value hl
        obtain ⟨m, rfl, hv⟩ := exists_of_depth_map_le h
        exact depth_insert_le h (ih (hv _ (Keyed.mem_of_lookup hl))) key
      · exact h
    | list items => exact h
    | scalar value => exact h

theorem depth_dropCpuLimit_le (h : tree.depth ≤ n) : tree.dropCpuLimit.depth ≤ n := by
  refine depth_updateMap_le (fun n limits hl => ?_) h
  obtain ⟨m, rfl, hv⟩ := exists_of_depth_map_le hl
  exact depth_map_le.mpr fun entry he => hv entry (List.mem_filter.mp he).1

/-- A property that a tree of each layer has through its parts in the layer below. Merging trees of
one layer, and dropping entries of one, leaves a tree of that layer. -/
structure Layered (P : Nat → Tree → Prop) : Prop where
  null (n : Nat) : P n .null
  empty (n : Nat) : P (n + 1) (.map [])
  list {n : Nat} {items : List Tree} : P (n + 1) (.list items) ↔ ∀ item ∈ items, P n item
  value {n : Nat} {entries : Entries} (h : P (n + 1) (.map entries)) :
    ∀ entry ∈ entries, P n entry.2
  insert {n : Nat} {entries : Entries} {value : Tree} (h : P (n + 1) (.map entries))
    (hv : P n value)
    (key : String) : P (n + 1) (.map (Keyed.insert entries key value))
  select {n : Nat} {entries : Entries} {keep : String × Tree → Bool}
    {change : String × Tree → Tree} (h : P (n + 1) (.map entries))
    (hc : ∀ entry ∈ entries, P n (change entry)) : P (n + 1) (.map (select keep change entries))
  blend {n : Nat} {takes : Tree → Tree → Prop} {a b r : Tree} (h : Blend takes a b r) (ha : P n a)
    (hb : P n b) : P n r
  dropManaged {n : Nat} {tree : Tree} (h : P n tree) (reset : List String) (rules : Entries) :
    P n (tree.dropManaged reset rules)
  prune {n : Nat} {tree : Tree} (h : P n tree) (rules : Entries) : P n (tree.prune rules)
  dropCpuLimit {n : Nat} {tree : Tree} (h : P n tree) : P n tree.dropCpuLimit

theorem layered_regular (hp : pass .null = true) :
    Layered fun _ tree => tree.regular pass = true where
  null _ := hp
  empty _ := regular_empty
  list := regular_list
  value h := (regular_map.mp h).2
  insert h hv _ := regular_insert h hv
  select := regular_select
  blend h ha hb := h.regular ha hb hp
  dropManaged h _ rules := regular_dropManaged h rules
  prune h rules := regular_prune h rules
  dropCpuLimit := regular_dropCpuLimit

theorem layered_depth : Layered fun n tree => tree.depth ≤ n where
  null := Nat.zero_le
  empty n := depth_map_le.mpr (by simp)
  list := depth_list_le
  value := depth_map_le.mp
  insert h hv key := depth_insert_le h hv key
  select _ hc := depth_select_le hc
  blend h ha hb := h.depth_le ha hb
  dropManaged h reset rules := depth_dropManaged_le reset rules h
  prune h rules := depth_prune_le rules h
  dropCpuLimit := depth_dropCpuLimit_le

namespace Layered

variable {P : Nat → Tree → Prop} (hP : Layered P)

include hP

theorem lookup (h : ∀ entry ∈ entries, P n entry.2) (key : String) :
    P n ((entries.lookup key).getD .null) := by
  cases hl : entries.lookup key with
  | none => exact hP.null n
  | some value => exact h _ (Keyed.mem_of_lookup hl)

/-- The entries of a tree make a map, and no entries do if it is not a map. -/
theorem map_entries (h : P (n + 1) tree) : P (n + 1) (.map tree.entries) := by
  cases tree with
  | map entries => exact h
  | list items => exact hP.empty n
  | scalar value => exact hP.empty n

theorem get (h : P (n + 1) tree) (key : String) : P n (tree.get key) :=
  hP.lookup (hP.value (hP.map_entries h)) key

theorem items (h : P (n + 1) tree) : ∀ item ∈ tree.items, P n item := by
  cases tree with
  | list items => exact hP.list.mp h
  | map entries => simp [Tree.items]
  | scalar value => simp [Tree.items]

theorem values {f : String → Tree → Tree} (h : P (n + 1) (.map entries))
    (hf : ∀ entry ∈ entries, P n (f entry.1 entry.2)) :
    P (n + 1) (.map (entries.map fun entry => (entry.1, f entry.1 entry.2))) := by
  have kept : P (n + 1) (.map (Tree.select (fun _ => true)
      (fun entry => f entry.1 entry.2) entries)) := hP.select h hf
  rwa [Tree.select, List.filter_eq_self.mpr fun _ _ => rfl] at kept

theorem filter (h : P (n + 1) (.map entries)) (keep : String × Tree → Bool) :
    P (n + 1) (.map (entries.filter keep)) := by
  have kept : P (n + 1) (.map (Tree.select keep Prod.snd entries)) := hP.select h (hP.value h)
  simpa [Tree.select] using kept

theorem listMap {items : List Tree} {g : Tree → Tree} (hg : ∀ item ∈ items, P n (g item)) :
    P (n + 1) (.list (items.map g)) :=
  hP.list.mpr (List.forall_mem_map.mpr hg)

theorem orElse (h : P (n + 1) tree) : P (n + 1) (tree.orElse (.map [])) := by
  unfold Tree.orElse
  split
  · exact h
  · exact hP.empty n

theorem replace {field : String} {change : Tree → Option Tree} (h : P (n + 1) tree)
    (hc : ∀ value, change (tree.get field) = some value → P n value) :
    P (n + 1) (tree.replace field change) := by
  unfold Tree.replace
  split
  · rename_i value hv
    cases tree with
    | map entries => exact hP.insert h (hc value hv) field
    | list items => exact h
    | scalar value => exact h
  · exact h

/-- A service stays in its layer if its kinds and its resources stay in theirs. -/
theorem rework {f : Entries → Entries} {g : List Tree → List Tree} (h : P (n + 2) tree)
    (hf : ∀ kinds, P (n + 1) (.map kinds) → P (n + 1) (.map (f kinds)))
    (hg : ∀ items, P (n + 1) (.list items) → P (n + 1) (.list (g items))) :
    P (n + 2) (Services.rework f g tree) := by
  refine hP.replace (hP.replace h fun value hv => ?_) fun value hv => ?_
  · have hs := hP.get h "spec"
    cases he : tree.get "spec" with
    | map kinds =>
      rw [he] at hs hv
      rw [← Option.some.inj hv]
      exact hf kinds hs
    | list items => simp [he, Services.onKinds] at hv
    | scalar value => simp [he, Services.onKinds] at hv
  · have hr : P (n + 1) (tree.get "resources") := hP.get h "resources"
    rw [Tree.get_replace rfl, if_neg (by decide)] at hv
    cases he : tree.get "resources" with
    | list items =>
      rw [he] at hr hv
      rw [← Option.some.inj hv]
      exact hg items hr
    | map entries => simp [he, Services.onItems] at hv
    | scalar value => simp [he, Services.onItems] at hv

end Layered

end Tree

end TenantSizing
