import TenantSizing.Proofs.Extremes
import TenantSizing.Proofs.Requests

namespace TenantSizing

namespace Tree

/-- Whether a map has a key; anything else has none. -/
def has (tree : Tree) (key : String) : Bool :=
  Keyed.has tree.entries key

/-- What a list holds at a position; null beyond its end, and of anything else. -/
def item (tree : Tree) (i : Nat) : Tree :=
  tree.items[i]?.getD .null

def isList : Tree → Bool
  | .list _ => true
  | _ => false

theorem isList_iff {tree : Tree} : tree.isList = true ↔ ∃ items, tree = .list items := by
  cases tree <;> simp [isList]

theorem get_of_not_has {tree : Tree} {name : String} (h : tree.has name = false) :
    tree.get name = .null := by
  rw [has, Keyed.has, Option.isSome_eq_false_iff, Option.isNone_iff_eq_none] at h
  rw [Tree.get, h, Option.getD_none]

theorem child?_key (tree : Tree) (name : String) :
    tree.child? (.key name) = if tree.has name then some (tree.get name) else none := by
  cases tree with
  | scalar value => rfl
  | list items => rfl
  | map entries =>
    rw [child?, has, Tree.entries, Keyed.has, get_map]
    cases entries.lookup name <;> rfl

theorem child?_index (tree : Tree) (i : Nat) :
    tree.child? (.index i) = if i < tree.items.length then some (tree.item i) else none := by
  cases tree with
  | scalar value => rfl
  | map entries => rfl
  | list items =>
    rw [child?, item, Tree.items]
    by_cases hi : i < items.length
    · rw [if_pos hi, List.getElem?_eq_getElem hi, Option.getD_some]
    · rw [if_neg hi, List.getElem?_eq_none (by omega)]

/-- Alike trees are built of the same scalars, lists of one length, and maps of the same keys. -/
inductive Alike : Tree → Tree → Prop where
  | scalars (value : Scalar) : Alike (.scalar value) (.scalar value)
  | lists {xs ys : List Tree} (length : xs.length = ys.length)
      (items : ∀ i, Alike ((Tree.list xs).item i) ((Tree.list ys).item i)) :
      Alike (.list xs) (.list ys)
  | maps {xs ys : Entries} (keys : ∀ key, (Tree.map xs).has key = (Tree.map ys).has key)
      (values : ∀ key, Alike ((Tree.map xs).get key) ((Tree.map ys).get key)) :
      Alike (.map xs) (.map ys)

variable {a b : Tree}

theorem Alike.of_lists (ha : a.isList = true) (hb : b.isList = true)
    (length : a.items.length = b.items.length) (items : ∀ i, Alike (a.item i) (b.item i)) :
    Alike a b := by
  obtain ⟨xs, rfl⟩ := isList_iff.mp ha
  obtain ⟨ys, rfl⟩ := isList_iff.mp hb
  exact .lists length items

theorem Alike.of_maps (ha : a.isMap = true) (hb : b.isMap = true)
    (keys : ∀ key, a.has key = b.has key) (values : ∀ key, Alike (a.get key) (b.get key)) :
    Alike a b := by
  obtain ⟨xs, rfl⟩ := isMap_iff.mp ha
  obtain ⟨ys, rfl⟩ := isMap_iff.mp hb
  exact .maps keys values

theorem forall_get {P : Tree → Prop} {tree : Tree} (h : ∀ entry ∈ tree.entries, P entry.2)
    (hn : P .null) (key : String) : P (tree.get key) := by
  unfold Tree.get
  cases hl : tree.entries.lookup key with
  | none => exact hn
  | some value => exact h _ (Keyed.mem_of_lookup hl)

theorem forall_item {P : Tree → Prop} {tree : Tree} (h : ∀ item ∈ tree.items, P item)
    (hn : P .null) (i : Nat) : P (tree.item i) := by
  unfold item
  cases hi : tree.items[i]? with
  | none => exact hn
  | some value => exact h value (List.mem_of_getElem? hi)

theorem Alike.refl (tree : Tree) : Alike tree tree := by
  have nothing : Alike .null .null := .scalars .null
  induction tree with
  | scalar value => exact .scalars value
  | list items ih => exact .lists rfl (forall_item (P := fun tree => Alike tree tree) ih nothing)
  | map entries ih =>
    exact .maps (fun _ => rfl) (forall_get (P := fun tree => Alike tree tree) ih nothing)

theorem has_iff {entries : Entries} {key : String} :
    (Tree.map entries).has key = true ↔ ∃ value, entries.lookup key = some value :=
  Option.isSome_iff_exists

theorem regular_item {pass : Scalar → Bool} {tree : Tree} (h : tree.regular pass = true)
    (hp : pass .null = true) (i : Nat) : (tree.item i).regular pass = true :=
  forall_item (regular_items h) hp i

theorem sameItemsBy_of_items {eq : Scalar → Scalar → Bool} {xs ys : List Tree}
    (length : xs.length = ys.length)
    (items : ∀ i, sameBy eq ((Tree.list xs).item i) ((Tree.list ys).item i) = true) :
    sameItemsBy eq xs ys = true := by
  induction xs generalizing ys with
  | nil =>
    cases ys with
    | nil => rfl
    | cons y ys => cases length
  | cons x xs ih =>
    cases ys with
    | nil => cases length
    | cons y ys =>
      rw [sameItemsBy, Bool.and_eq_true]
      exact ⟨items 0, ih (Nat.succ.inj length) fun i => items (i + 1)⟩

/-- Alike trees are the same, as far as every number in them equals itself. -/
theorem Alike.same (h : Alike a b) (hr : a.regular Scalar.isComparable = true)
    (hs : b.regular Scalar.isComparable = true) : a.same b = true := by
  induction h with
  | scalars value => exact Scalar.same_self hr
  | lists length items ih =>
    exact sameItemsBy_of_items length fun i =>
      ih i (regular_item hr rfl i) (regular_item hs rfl i)
  | maps keys values ih =>
    rename_i xs ys
    rw [Tree.same, sameBy, Bool.and_eq_true]
    refine ⟨List.all_eq_true.mpr fun entry he => ?_, sameEntriesBy_iff.mpr fun entry he => ?_⟩
    · exact (keys entry.1).trans (Keyed.has_of_mem he)
    · obtain ⟨y, hy⟩ := has_iff.mp ((keys entry.1).symm.trans (Keyed.has_of_mem he))
      have hx := Keyed.lookup_of_mem (regular_map.mp hr).1 he
      have hv := ih entry.1 (regular_get hr rfl _) (regular_get hs rfl _)
      rw [get_map, get_map, hx, hy] at hv
      exact ⟨y, hy, hv⟩

theorem same_has (h : a.same b = true) (key : String) : a.has key = b.has key := by
  cases a with
  | scalar value => cases b <;> simp_all [same, sameBy, has, entries]
  | list items => cases b <;> simp_all [same, sameBy, has, entries]
  | map xs =>
    cases b with
    | scalar value => simp [same, sameBy] at h
    | list items => simp [same, sameBy] at h
    | map ys =>
      rw [same, sameBy, Bool.and_eq_true] at h
      rw [Bool.eq_iff_iff]
      constructor
      · intro hx
        obtain ⟨x, hl⟩ := has_iff.mp hx
        obtain ⟨y, hy, _⟩ := sameEntriesBy_iff.mp h.2 (key, x) (Keyed.mem_of_lookup hl)
        exact has_iff.mpr ⟨y, hy⟩
      · intro hy
        obtain ⟨y, hl⟩ := has_iff.mp hy
        exact List.all_eq_true.mp h.1 (key, y) (Keyed.mem_of_lookup hl)

theorem same_items {xs ys : List Tree} (h : (Tree.list xs).same (.list ys) = true) :
    xs.length = ys.length ∧
      ∀ i, ((Tree.list xs).item i).same ((Tree.list ys).item i) = true := by
  rw [same, sameBy] at h
  induction xs generalizing ys with
  | nil =>
    cases ys with
    | nil => exact ⟨rfl, fun i => by simp [item, Tree.items, same, sameBy, Scalar.same]⟩
    | cons y ys => simp [sameItemsBy] at h
  | cons x xs ih =>
    cases ys with
    | nil => simp [sameItemsBy] at h
    | cons y ys =>
      rw [sameItemsBy, Bool.and_eq_true] at h
      obtain ⟨length, items⟩ := ih h.2
      refine ⟨congrArg Nat.succ length, fun i => ?_⟩
      cases i with
      | zero => exact h.1
      | succ i => exact items i

theorem length_align (f : Tree → Tree → Tree) (xs ys : List Tree) :
    (align f xs ys).length = max xs.length ys.length := by
  induction xs generalizing ys with
  | nil => simp [align]
  | cons x xs ih =>
    cases ys with
    | nil => simp [align]
    | cons y ys => simp [align, ih]

theorem item_align {f : Tree → Tree → Tree} (left : ∀ b, f .null b = b) (right : ∀ a, f a .null = a)
    (xs ys : List Tree) (i : Nat) :
    (Tree.list (align f xs ys)).item i = f ((Tree.list xs).item i) ((Tree.list ys).item i) := by
  induction xs generalizing ys i with
  | nil =>
    rw [align]
    exact (left _).symm
  | cons x xs ih =>
    cases ys with
    | nil => exact (right _).symm
    | cons y ys =>
      cases i with
      | zero => rfl
      | succ i => exact ih ys i

theorem has_unite {cs ss : Entries} (f : String → Tree → Tree) (key : String) :
    (Tree.map (cs.map (fun entry => (entry.1, f entry.1 entry.2)) ++ Keyed.without ss cs)).has key =
      ((Tree.map cs).has key || (Tree.map ss).has key) := by
  simp only [has, entries, Keyed.has]
  rw [Keyed.lookup_append, Keyed.lookup_map, Keyed.lookup_without, Keyed.has]
  cases cs.lookup key <;> simp

/-- A blend is nothing only if one of the two is. -/
theorem Blend.eq_null {takes : Tree → Tree → Prop} {r : Tree} (h : Blend takes a b r)
    (hr : r = .null) : a = .null ∨ b = .null := by
  cases h with
  | first => exact .inl hr
  | second => exact .inr hr
  | lists => cases hr
  | maps => cases hr

theorem Blend.kind_eq {takes : Tree → Tree → Prop} {r : Tree} (h : Blend takes a b r)
    (hk : a.kind = b.kind) : r.kind = a.kind := by
  cases h with
  | first => rfl
  | second => exact hk.symm
  | lists => rfl
  | maps => rfl

/-- A merge that goes through maps key by key and through lists by position, passes on what only one
side holds, and keeps the first side where the second one is of another kind. Of sides that are the
same it always gives the first or always the second. It may depend on the last key above. -/
structure Pointwise (f : Option String → Tree → Tree → Tree) : Prop where
  null_left : ∀ key b, f key .null b = b
  null_right : ∀ key a, f key a .null = a
  same : (∀ key a b, a.same b = true → f key a b = a) ∨ ∀ key a b, a.same b = true → f key a b = b
  clash : ∀ key a b, a.kind ≠ b.kind → a ≠ .null → f key a b = a
  blend : ∀ key a b, ∃ takes, Blend takes a b (f key a b)
  maps : ∀ key cs ss, (Tree.map cs).same (.map ss) = false →
    f key (.map cs) (.map ss) =
      .map (cs.map (fun entry =>
        (entry.1, f (some entry.1) entry.2 ((ss.lookup entry.1).getD .null))) ++
          Keyed.without ss cs)
  maps_get : ∀ key a b, a.isMap = true → b.isMap = true →
    ∀ name, (f key a b).get name = f (some name) (a.get name) (b.get name)
  lists : ∀ key xs ys, (Tree.list xs).same (.list ys) = false →
    f key (.list xs) (.list ys) = .list (align (f key) xs ys)

theorem isMap_iff_kind {tree : Tree} : tree.isMap = true ↔ tree.kind = .map := by
  cases tree <;> simp [Tree.isMap, kind]

theorem isList_iff_kind {tree : Tree} : tree.isList = true ↔ tree.kind = .list := by
  cases tree <;> simp [isList, kind]

theorem ne_null_of_isMap (h : a.isMap = true) : a ≠ .null := by
  rintro rfl
  cases h

theorem ne_null_of_isList (h : a.isList = true) : a ≠ .null := by
  rintro rfl
  cases h

theorem entries_of_not_map (h : a.isMap = false) : a.entries = [] := by
  cases a <;> simp_all [Tree.isMap, entries]

theorem items_of_not_list (h : a.isList = false) : a.items = [] := by
  cases a <;> simp_all [isList, Tree.items]

namespace Pointwise

variable {f : Option String → Tree → Tree → Tree} (h : Pointwise f) (key : Option String)

include h

theorem same_eq (hs : a.same b = true) : f key a b = a ∨ f key a b = b :=
  h.same.imp (· key a b hs) (· key a b hs)

/-- A merge gives nothing only if nothing had been there. -/
theorem filled (he : f key a b = .null) : a = .null := by
  obtain ⟨takes, blend⟩ := h.blend key a b
  rcases blend.eq_null he with ha | rfl
  · exact ha
  · exact (h.null_right key a).symm.trans he

theorem kind (hn : a ≠ .null) : (f key a b).kind = a.kind := by
  obtain ⟨takes, blend⟩ := h.blend key a b
  by_cases hk : a.kind = b.kind
  · exact blend.kind_eq hk
  · rw [h.clash key a b hk hn]

theorem maps_has (ha : a.isMap = true) (hb : b.isMap = true) (name : String) :
    (f key a b).has name = (a.has name || b.has name) := by
  obtain ⟨cs, rfl⟩ := isMap_iff.mp ha
  obtain ⟨ss, rfl⟩ := isMap_iff.mp hb
  by_cases hs : (Tree.map cs).same (.map ss) = true
  · have both := same_has hs name
    rcases h.same_eq key hs with he | he
    · rw [he, ← both, Bool.or_self]
    · rw [he, both, Bool.or_self]
  · rw [h.maps key cs ss (by simpa using hs)]
    exact has_unite (fun k v => f (some k) v ((ss.lookup k).getD .null)) name

theorem lists_item (ha : a.isList = true) (hb : b.isList = true) (i : Nat) :
    (f key a b).item i = f key (a.item i) (b.item i) := by
  obtain ⟨xs, rfl⟩ := isList_iff.mp ha
  obtain ⟨ys, rfl⟩ := isList_iff.mp hb
  by_cases hs : (Tree.list xs).same (.list ys) = true
  · have there := (same_items hs).2 i
    rcases h.same with first | second
    · rw [first _ _ _ hs, first _ _ _ there]
    · rw [second _ _ _ hs, second _ _ _ there]
  · rw [h.lists key xs ys (by simpa using hs)]
    exact item_align (h.null_left key) (h.null_right key) xs ys i

theorem lists_length (ha : a.isList = true) (hb : b.isList = true) :
    (f key a b).items.length = max a.items.length b.items.length := by
  obtain ⟨xs, rfl⟩ := isList_iff.mp ha
  obtain ⟨ys, rfl⟩ := isList_iff.mp hb
  by_cases hs : (Tree.list xs).same (.list ys) = true
  · have lengths := (same_items hs).1
    rcases h.same_eq key hs with he | he
    · rw [he]
      simp [Tree.items, lengths]
    · rw [he]
      simp [Tree.items, lengths]
  · rw [h.lists key xs ys (by simpa using hs)]
    exact length_align _ xs ys

theorem isMap (hn : a ≠ .null) : (f key a b).isMap = a.isMap := by
  rw [Bool.eq_iff_iff, isMap_iff_kind, isMap_iff_kind, h.kind key hn]

theorem isList (hn : a ≠ .null) : (f key a b).isList = a.isList := by
  rw [Bool.eq_iff_iff, isList_iff_kind, isList_iff_kind, h.kind key hn]

theorem map_or_null (hm : (f key a b).isMap = true) :
    a.isMap = true ∨ a = .null := by
  by_cases hn : a = .null
  · exact .inr hn
  · exact .inl (h.isMap key hn ▸ hm)

theorem list_or_null (hl : (f key a b).isList = true) :
    a.isList = true ∨ a = .null := by
  by_cases hn : a = .null
  · exact .inr hn
  · exact .inl (h.isList key hn ▸ hl)

theorem of_not_map (ha : a.isMap = true) (hb : b.isMap = false) :
    f key a b = a := by
  refine h.clash key a b (fun hk => ?_) (ne_null_of_isMap ha)
  rw [isMap_iff_kind.mpr (hk ▸ isMap_iff_kind.mp ha)] at hb
  cases hb

theorem of_not_list (ha : a.isList = true) (hb : b.isList = false) :
    f key a b = a := by
  refine h.clash key a b (fun hk => ?_) (ne_null_of_isList ha)
  rw [isList_iff_kind.mpr (hk ▸ isList_iff_kind.mp ha)] at hb
  cases hb

/-- What a map, or nothing, holds under a key once something has been merged into it. -/
theorem get (ha : a.isMap = true ∨ a = .null) (name : String) :
    (f key a b).get name = f (some name) (a.get name) (b.get name) := by
  rcases ha with ha | rfl
  · cases hb : b.isMap with
    | true => exact h.maps_get key a b ha hb name
    | false => rw [get_of_not_map hb, h.null_right, h.of_not_map key ha hb]
  · rw [h.null_left, get_null, h.null_left]

theorem has (ha : a.isMap = true ∨ a = .null) (name : String) :
    (f key a b).has name = (a.has name || b.has name) := by
  rcases ha with ha | rfl
  · cases hb : b.isMap with
    | true => exact h.maps_has key ha hb name
    | false =>
      have none : b.has name = false := by
        rw [Tree.has, entries_of_not_map hb]
        rfl
      rw [none, Bool.or_false, h.of_not_map key ha hb]
  · rw [h.null_left]
    rfl

theorem item (ha : a.isList = true ∨ a = .null) (i : Nat) :
    (f key a b).item i = f key (a.item i) (b.item i) := by
  rcases ha with ha | rfl
  · cases hb : b.isList with
    | true => exact h.lists_item key ha hb i
    | false =>
      have none : b.item i = .null := by
        rw [Tree.item, items_of_not_list hb]
        rfl
      rw [none, h.null_right, h.of_not_list key ha hb]
  · have none : Tree.null.item i = .null := rfl
    rw [h.null_left, none, h.null_left]

theorem length (ha : a.isList = true ∨ a = .null) :
    (f key a b).items.length = max a.items.length b.items.length := by
  rcases ha with ha | rfl
  · cases hb : b.isList with
    | true => exact h.lists_length key ha hb
    | false =>
      rw [h.of_not_list key ha hb, items_of_not_list hb]
      exact (Nat.max_zero _).symm
  · rw [h.null_left]
    exact (Nat.zero_max _).symm

end Pointwise

theorem pointwise_merge (policy : MergePolicy) : Pointwise fun key => merge policy key where
  null_left _ := null_merge
  null_right _ := merge_null
  same := .inr fun _ _ _ => merge_of_same
  clash _ _ _ := merge_clash
  blend _ a b := ⟨_, blend_merge a b⟩
  maps _ _ _ h := by rw [merge_maps h, mergeEntries_eq_map]
  maps_get _ _ _ ha hb := get_merge ha hb
  lists _ _ _ h := by rw [merge_lists h, mergeItems_eq_align]

theorem pointwise_extremeMerge (x : Extreme) : Pointwise fun _ => extremeMerge x where
  null_left _ := null_extremeMerge
  null_right _ := extremeMerge_null
  same := .inl fun _ _ _ => extremeMerge_of_same
  clash _ _ _ := extremeMerge_clash
  blend _ a b := ⟨_, blend_extremeMerge a b⟩
  maps _ _ _ h := by rw [extremeMerge_maps h, extremeMergeEntries_eq_map]
  maps_get _ _ _ ha hb := get_extremeMerge ha hb
  lists _ _ _ h := by rw [extremeMerge_lists h, extremeMergeItems_eq_align]

end Tree

end TenantSizing
