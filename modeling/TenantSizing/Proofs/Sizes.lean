import TenantSizing.Proofs.Conformance
import TenantSizing.Proofs.Extremes
import TenantSizing.Proofs.Quantities
import TenantSizing.Proofs.Requests

namespace TenantSizing

namespace Tree

/-- An integer, a text that reads as a quantity, or nothing. -/
def isSize : Tree → Bool
  | .null => true
  | .int _ => true
  | .text value => (Quantity.read? value).isSome
  | _ => false

/-- Along the path there are maps or nothing, and at its end a size. -/
def sizedAlong : List String → Tree → Bool
  | [], tree => tree.isSize
  | key :: keys, tree => (tree.isNull || tree.isMap) && (tree.get key).sizedAlong keys

/-- The number at a path, if there is a quantity. -/
def sizeAt (path : List String) (tree : Tree) : Option ℚ :=
  (tree.follow path).quantity?.map Quantity.value

variable {path keys : List String}

@[simp] theorem sizeAt_null : sizeAt path .null = none := by
  rw [sizeAt, follow_null]
  rfl

theorem sizeAt_cons (name : String) (tree : Tree) :
    sizeAt (name :: keys) tree = sizeAt keys (tree.get name) :=
  rfl

@[simp] theorem sizedAlong_null : sizedAlong path .null = true := by
  induction path with
  | nil => rfl
  | cons name keys ih => simp [sizedAlong, isNull, ih]

theorem sizedAlong_cons {name : String} {tree : Tree} :
    sizedAlong (name :: keys) tree = true ↔
      (tree = .null ∨ tree.isMap = true) ∧ sizedAlong keys (tree.get name) = true := by
  rw [sizedAlong, Bool.and_eq_true, Bool.or_eq_true, isNull_iff]

/-- A size is nothing, or a scalar with a quantity. -/
theorem isSize_cases {tree : Tree} (h : tree.isSize = true) :
    tree = .null ∨ ∃ s q, tree = .scalar s ∧ s.quantity? = some q := by
  cases tree with
  | map entries => cases h
  | list items => cases h
  | scalar s =>
    cases s with
    | null => exact .inl rfl
    | bool value => cases h
    | float value => cases h
    | int n => exact .inr ⟨.int n, .ofInt n, rfl, rfl⟩
    | text value =>
      rw [isSize] at h
      obtain ⟨q, hq⟩ := Option.isSome_iff_exists.mp h
      exact .inr ⟨.text value, q, rfl, hq⟩

/-- Sizes that are the same are written alike. -/
theorem eq_of_same_size {a b : Tree} (ha : a.isSize = true) (hb : b.isSize = true)
    (h : a.same b = true) : a = b := by
  cases a with
  | map entries => cases ha
  | list items => cases ha
  | scalar s =>
    cases b with
    | map entries => cases hb
    | list items => cases hb
    | scalar t => cases s <;> cases t <;> simp_all [isSize, same, sameBy, Scalar.same]

/-- A merge that passes on what only one side holds, goes through maps key by key, and combines two
sizes by their numbers. It may depend on the last key above. -/
structure Combines (combine : ℚ → ℚ → ℚ) (allowed : Option String → Prop)
    (f : Option String → Tree → Tree → Tree) : Prop where
  null_left : ∀ key b, f key .null b = b
  null_right : ∀ key a, f key a .null = a
  isMap : ∀ key a b, a.isMap = true → b.isMap = true → (f key a b).isMap = true
  get : ∀ key a b, a.isMap = true → b.isMap = true → ∀ name,
    (f key a b).get name = f (some name) (a.get name) (b.get name)
  sizes : ∀ key, allowed key → ∀ s t p q, (Tree.scalar s).isSize = true →
    (Tree.scalar t).isSize = true → s.quantity? = some p → t.quantity? = some q →
    (f key (.scalar s) (.scalar t)).isSize = true ∧
      (f key (.scalar s) (.scalar t)).quantity?.map Quantity.value = some (combine p.value q.value)

/-- The last key of a path, or else the one above it. -/
theorem getLast?_or_some (name : String) (keys : List String) (key : Option String) :
    (name :: keys).getLast?.or key = keys.getLast?.or (some name) := by
  rw [List.getLast?_cons]
  cases keys.getLast? <;> rfl

/-- Such a merge combines the sizes at every path. -/
theorem Combines.sizeAt {combine : ℚ → ℚ → ℚ} {allowed : Option String → Prop}
    {f : Option String → Tree → Tree → Tree} (h : Combines combine allowed f) (key : Option String)
    {a b : Tree} (hk : allowed (path.getLast?.or key)) (ha : sizedAlong path a = true)
    (hb : sizedAlong path b = true) :
    sizedAlong path (f key a b) = true ∧
      Tree.sizeAt path (f key a b) =
        Option.merge combine (Tree.sizeAt path a) (Tree.sizeAt path b) := by
  induction path generalizing key a b with
  | nil =>
    rcases isSize_cases ha with rfl | ⟨s, p, rfl, hp⟩
    · rw [h.null_left]
      exact ⟨hb, by simp⟩
    · rcases isSize_cases hb with rfl | ⟨t, q, rfl, hq⟩
      · rw [h.null_right]
        exact ⟨ha, by simp⟩
      · obtain ⟨size, value⟩ := h.sizes key hk s t p q ha hb hp hq
        refine ⟨size, ?_⟩
        have first : Tree.sizeAt [] (.scalar s) = some p.value := by
          rw [Tree.sizeAt, follow_nil, Tree.quantity?, hp, Option.map_some]
        have second : Tree.sizeAt [] (.scalar t) = some q.value := by
          rw [Tree.sizeAt, follow_nil, Tree.quantity?, hq, Option.map_some]
        rw [first, second]
        exact value
  | cons name keys ih =>
    obtain ⟨hma, hka⟩ := sizedAlong_cons.mp ha
    obtain ⟨hmb, hkb⟩ := sizedAlong_cons.mp hb
    rcases hma with rfl | hma
    · rw [h.null_left]
      exact ⟨hb, by simp⟩
    rcases hmb with rfl | hmb
    · rw [h.null_right]
      exact ⟨ha, by simp⟩
    obtain ⟨sized, size⟩ := ih (some name) (getLast?_or_some name keys key ▸ hk) hka hkb
    refine ⟨sizedAlong_cons.mpr ⟨.inr (h.isMap key a b hma hmb), ?_⟩, ?_⟩
    · rw [h.get key a b hma hmb]
      exact sized
    · rw [sizeAt_cons, sizeAt_cons, sizeAt_cons, h.get key a b hma hmb]
      exact size

theorem combines_extremeMerge (x : Extreme) :
    Combines x.level (fun _ => True) fun _ => extremeMerge x where
  null_left _ := null_extremeMerge
  null_right _ := extremeMerge_null
  isMap _ a b ha hb := by
    rcases (blend_extremeMerge (x := x) a b).isMap with h | ⟨rfl, _⟩
    · exact h.trans ha
    · cases ha
  get _ a b ha hb name := get_extremeMerge ha hb name
  sizes _ _ s t p q hs ht hp hq := by
    by_cases he : (Tree.scalar s).same (.scalar t) = true
    · obtain rfl : s = t := Tree.scalar.inj (eq_of_same_size hs ht he)
      obtain rfl : p = q := Option.some.inj (hp.symm.trans hq)
      rw [extremeMerge_of_same he]
      refine ⟨hs, ?_⟩
      cases x <;> simp [Tree.quantity?, hp, Extreme.level]
    · have hn : ∀ {v w}, Scalar.quantity? v = some w → v ≠ .null := by
        rintro v w hv rfl
        cases hv
      rw [extremeMerge_scalars (by simpa using he) (hn hp) (hn hq)]
      refine ⟨?_, Extreme.quantity?_pick hp hq⟩
      rcases x.pick_eq s t with h | h
      · rw [h]
        exact hs
      · rw [h]
        exact ht

/-- Requests that are assigned directly win, and others grow the comparable keys. -/
theorem combines_merge (policy : MergePolicy) :
    Combines (if policy.directAssign then fun _ b => b else Max.max)
      (fun key => policy.directAssign = true ∨ key.any policy.comparable.contains = true)
      fun key => merge policy key where
  null_left _ := null_merge
  null_right _ := merge_null
  isMap _ a b ha hb := by
    rcases (blend_merge a b).isMap with h | ⟨rfl, _⟩
    · exact h.trans ha
    · cases ha
  get _ a b ha hb name := get_merge ha hb name
  sizes key hk s t p q hs ht hp hq := by
    by_cases he : (Tree.scalar s).same (.scalar t) = true
    · obtain rfl : s = t := Tree.scalar.inj (eq_of_same_size hs ht he)
      obtain rfl : p = q := Option.some.inj (hp.symm.trans hq)
      rw [merge_of_same he]
      refine ⟨hs, ?_⟩
      cases policy.directAssign <;> simp [Tree.quantity?, hp]
    · have hn : ∀ {v w}, Scalar.quantity? v = some w → v ≠ .null := by
        rintro v w hv rfl
        cases hv
      rw [merge_scalars (by simpa using he) (hn hp) (hn hq)]
      refine ⟨?_, ?_⟩
      · rcases resolve_eq policy key s t with h | h
        · rw [h]
          exact hs
        · rw [h]
          exact ht
      · unfold MergePolicy.resolve
        cases hd : policy.directAssign with
        | true => simp [Tree.quantity?, hq]
        | false =>
          rw [if_neg (by simp), if_pos (hk.resolve_left (by simp [hd])), if_neg (by simp)]
          exact Extreme.quantity?_pick (x := .max) hp hq

/-- A rule for a path admits what is sized along it. -/
theorem admits_of_sizedAlong {rule value : Tree} (sized : sizedAlong path value = true)
    (governed : rule.follow path ≠ .null) : rule.admits value = true := by
  cases path with
  | nil =>
    have filled : rule.isNull = false := Bool.eq_false_iff.mpr fun hn => governed (isNull_iff.mp hn)
    have leaf : value.isMap = false := by
      rcases isSize_cases sized with rfl | ⟨s, _, rfl, _⟩ <;> rfl
    simp [admits, filled, leaf]
  | cons next keys =>
    have map : rule.isMap = true := by
      by_contra hn
      exact governed (follow_of_not_map (by simpa using hn) (by simp))
    obtain ⟨below, rfl⟩ := isMap_iff.mp map
    simp [admits, isNull, isMap]

theorem get_prune_of_sizedAlong {rules entries : Entries} {name : String}
    (sized : sizedAlong path ((Tree.map entries).get name) = true)
    (governed : (ruleAt rules name).follow path ≠ .null) :
    ((Tree.map entries).prune rules).get name =
      ((Tree.map entries).get name).prune (ruleAt rules name).entries := by
  rw [prune_map, get_map, get_map]
  cases hl : entries.lookup name with
  | none =>
    rw [lookup_select_of_none hl]
    rfl
  | some value =>
    rw [get_map, hl, Option.getD_some] at sized
    rw [lookup_select_of_keep hl (admits_of_sizedAlong sized governed)]
    rfl

theorem sizeAt_prune (rules : Entries) {tree : Tree} (ht : sizedAlong path tree = true)
    (hg : path ≠ [] → (Tree.map rules).follow path ≠ .null) :
    sizedAlong path (tree.prune rules) = true ∧
      sizeAt path (tree.prune rules) = sizeAt path tree := by
  induction path generalizing tree rules with
  | nil =>
    have same : tree.prune rules = tree := by
      rcases isSize_cases ht with rfl | ⟨s, _, rfl, _⟩ <;> rfl
    rw [same]
    exact ⟨ht, rfl⟩
  | cons name keys ih =>
    obtain ⟨hm, hk⟩ := sizedAlong_cons.mp ht
    rcases hm with rfl | hm
    · exact ⟨ht, rfl⟩
    obtain ⟨entries, rfl⟩ := isMap_iff.mp hm
    have governed : (ruleAt rules name).follow keys ≠ .null := hg (by simp)
    have pruned := get_prune_of_sizedAlong hk governed
    obtain ⟨sized, size⟩ := ih (ruleAt rules name).entries hk fun hn => by
      rw [follow_entries _ hn]
      exact governed
    refine ⟨sizedAlong_cons.mpr ⟨.inr rfl, ?_⟩, ?_⟩
    · rw [pruned]
      exact sized
    · rw [sizeAt_cons, sizeAt_cons, pruned]
      exact size

/-- What counts as false and holds sizes holds none. -/
theorem sizeAt_orElse {tree : Tree} (hp : path ≠ []) (ht : sizedAlong path tree = true) :
    sizedAlong path (tree.orElse (.map [])) = true ∧
      sizeAt path (tree.orElse (.map [])) = sizeAt path tree := by
  cases path with
  | nil => exact absurd rfl hp
  | cons name keys =>
    rcases (sizedAlong_cons.mp ht).1 with rfl | hm
    · exact ⟨ht, rfl⟩
    · obtain ⟨entries, rfl⟩ := isMap_iff.mp hm
      cases entries with
      | nil => exact ⟨ht, rfl⟩
      | cons entry rest => exact ⟨ht, rfl⟩

/-- Steps that combine a held size with the one that they are given fold the sizes. -/
theorem sizeAt_foldl {P : Tree → Prop} {combine : ℚ → ℚ → ℚ} {step : Tree → Tree → Tree}
    (each : ∀ held wanted, P held → sizedAlong path wanted = true → P (step held wanted) ∧
      sizeAt path (step held wanted) = Option.merge combine (sizeAt path held) (sizeAt path wanted))
    {items : List Tree} (hi : ∀ wanted ∈ items, sizedAlong path wanted = true) {held : Tree}
    (hh : P held) :
    P (items.foldl step held) ∧ sizeAt path (items.foldl step held) =
      (items.map (sizeAt path)).foldl (Option.merge combine) (sizeAt path held) := by
  induction items generalizing held with
  | nil => exact ⟨hh, rfl⟩
  | cons wanted rest ih =>
    obtain ⟨kept, size⟩ := each held wanted hh (hi wanted (by simp))
    rw [List.foldl_cons, List.map_cons, List.foldl_cons, ← size]
    exact ih (fun other ho => hi other (by simp [ho])) kept

/-- The largest number that some trees hold at a path. -/
def largestAt (path : List String) (items : List Tree) : Option ℚ :=
  (items.filterMap (sizeAt path)).max?

theorem largestAt_cons (tree : Tree) (items : List Tree) :
    largestAt path (tree :: items) =
      Option.merge Max.max (sizeAt path tree) (largestAt path items) := by
  unfold largestAt
  rw [List.filterMap_cons]
  cases sizeAt path tree with
  | none => simp
  | some size =>
    rw [List.max?_cons]
    cases (items.filterMap (sizeAt path)).max? <;> rfl

theorem merge_max_largestAt {items : List Tree} {size : ℚ}
    (h : size ∈ items.filterMap (sizeAt path)) :
    Option.merge Max.max (some size) (largestAt path items) = largestAt path items := by
  unfold largestAt
  cases hm : (items.filterMap (sizeAt path)).max? with
  | none =>
    rw [List.max?_eq_none_iff.mp hm] at h
    cases h
  | some most =>
    have le := (List.max?_eq_some_iff.mp hm).2 size h
    exact congrArg some (max_eq_right le)

/-- Growing the last of some sizes by the largest of more gives the largest; if there is no last
one, it is what was held that grows. -/
theorem merge_last {few more : List Tree} (held : Option ℚ)
    (among : ∀ tree ∈ few, tree ∈ more) :
    Option.merge Max.max (((few.filterMap (sizeAt path)).getLast?).or held) (largestAt path more) =
      if (largestAt path few).isSome then largestAt path more
      else Option.merge Max.max held (largestAt path more) := by
  cases hl : (few.filterMap (sizeAt path)).getLast? with
  | none =>
    have silent : largestAt path few = none := by
      rw [largestAt, List.max?_eq_none_iff]
      exact List.getLast?_eq_none_iff.mp hl
    rw [silent]
    rfl
  | some last =>
    have member := List.mem_of_getLast? hl
    have asks : (largestAt path few).isSome = true := by
      rw [Option.isSome_iff_ne_none, ne_eq, largestAt, List.max?_eq_none_iff]
      exact List.ne_nil_of_mem member
    rw [if_pos asks]
    obtain ⟨tree, ht, size⟩ := List.mem_filterMap.mp member
    exact merge_max_largestAt (List.mem_filterMap.mpr ⟨tree, among tree ht, size⟩)

/-- Growing by one size after the other is growing by the largest. -/
theorem foldl_max (items : List Tree) (size : Option ℚ) :
    (items.map (sizeAt path)).foldl (Option.merge Max.max) size =
      Option.merge Max.max size (largestAt path items) := by
  induction items generalizing size with
  | nil => exact (Option.merge_none_right).symm
  | cons tree rest ih =>
    rw [List.map_cons, List.foldl_cons, ih, largestAt_cons]
    exact Std.Associative.assoc _ _ _

/-- Assigning one size after the other leaves the last of them, or what was held if there are
none. -/
theorem foldl_assign (items : List Tree) (size : Option ℚ) :
    (items.map (sizeAt path)).foldl (Option.merge fun _ b => b) size =
      ((items.filterMap (sizeAt path)).getLast?).or size := by
  induction items generalizing size with
  | nil => rfl
  | cons tree rest ih =>
    rw [List.map_cons, List.foldl_cons, ih, List.filterMap_cons]
    cases sizeAt path tree with
    | none => simp
    | some first =>
      rw [List.getLast?_cons]
      cases (rest.filterMap (sizeAt path)).getLast? <;> cases size <;> rfl

end Tree

end TenantSizing
