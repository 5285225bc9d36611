import Mathlib.Data.List.Forall2
import Mathlib.Data.List.Nodup
import TenantSizing.Proofs.Repetition
import TenantSizing.Tree.Depth

namespace TenantSizing

namespace Keyed

variable {α : Type}

/-- Where no key is there twice, a lookup does not depend on the order of the entries. -/
theorem lookup_perm {xs ys : Keyed α} (hp : xs.Perm ys) (hn : (keys xs).Nodup) (key : String) :
    xs.lookup key = ys.lookup key := by
  have hm : (keys ys).Nodup := (hp.map Prod.fst).nodup_iff.mp hn
  refine Option.ext fun value => ?_
  constructor
  · exact fun h => lookup_of_mem hm (hp.subset (mem_of_lookup h))
  · exact fun h => lookup_of_mem hn (hp.symm.subset (mem_of_lookup h))

end Keyed

namespace Tree

variable {a b c d : Tree}

namespace Alike

theorem kind (h : Alike a b) : a.kind = b.kind := by
  cases h <;> rfl

theorem isMap (h : Alike a b) : a.isMap = b.isMap := by
  cases h <;> rfl

theorem isList (h : Alike a b) : a.isList = b.isList := by
  cases h <;> rfl

theorem isNull (h : Alike a b) : a.isNull = b.isNull := by
  cases h <;> rfl

theorem null_iff (h : Alike a b) : a = .null ↔ b = .null := by
  rw [← isNull_iff, ← isNull_iff, h.isNull]

theorem string (h : Alike a b) : a.string = b.string := by
  cases h <;> rfl

theorem text_iff (h : Alike a b) (name : String) : a = .text name ↔ b = .text name := by
  cases h <;> simp

theorem has (h : Alike a b) (key : String) : a.has key = b.has key := by
  cases h with
  | scalars value => rfl
  | lists length items => rfl
  | maps keys values => exact keys key

theorem get (h : Alike a b) (key : String) : Alike (a.get key) (b.get key) := by
  cases h with
  | scalars value => exact .refl _
  | lists length items => exact .refl _
  | maps keys values => exact values key

theorem length (h : Alike a b) : a.items.length = b.items.length := by
  cases h with
  | scalars value => rfl
  | lists length items => exact length
  | maps keys values => rfl

theorem item (h : Alike a b) (i : Nat) : Alike (a.item i) (b.item i) := by
  cases h with
  | scalars value => exact .refl _
  | lists length items => exact items i
  | maps keys values => exact .refl _

theorem entries (h : Alike a b) : Alike (.map a.entries) (.map b.entries) :=
  .maps h.has h.get

theorem lookup (h : Alike a b) (key : String) :
    Option.Rel Alike (a.entries.lookup key) (b.entries.lookup key) := by
  have there : (a.entries.lookup key).isSome = (b.entries.lookup key).isSome := h.has key
  have values : Alike ((a.entries.lookup key).getD .null) ((b.entries.lookup key).getD .null) :=
    h.get key
  generalize a.entries.lookup key = v, b.entries.lookup key = w at there values
  cases v with
  | none =>
    cases w with
    | none => exact .none
    | some y => cases there
  | some x =>
    cases w with
    | none => cases there
    | some y => exact .some values

theorem truthy (h : Alike a b) : a.truthy = b.truthy := by
  cases h with
  | scalars value => rfl
  | lists length items =>
    rename_i xs ys
    cases xs <;> cases ys <;> first | rfl | cases length
  | maps keys values =>
    rename_i xs ys
    -- only the empty map has no key
    have empty : ∀ zs : Entries, zs.isEmpty = true ↔ ∀ key, (Tree.map zs).has key = false := by
      intro zs
      cases zs with
      | nil => simp [Tree.has, Tree.entries, Keyed.has]
      | cons entry rest =>
        simp only [List.isEmpty_cons, Bool.false_eq_true, false_iff, not_forall]
        exact ⟨entry.1, by simp [Tree.has, Tree.entries, Keyed.has]⟩
    have same : xs.isEmpty = ys.isEmpty := by
      rw [Bool.eq_iff_iff, empty, empty]
      simp only [keys]
    rw [Tree.truthy, Tree.truthy, same]

/-- Maps are alike if lookups in them are. -/
theorem of_lookup {xs ys : Entries}
    (h : ∀ key, Option.Rel Alike (xs.lookup key) (ys.lookup key)) : Alike (.map xs) (.map ys) := by
  refine .maps (fun key => ?_) fun key => ?_
  · rw [Tree.has, Tree.has, Tree.entries, Tree.entries, Keyed.has, Keyed.has]
    have values := h key
    generalize xs.lookup key = v, ys.lookup key = w at values
    cases values <;> rfl
  · rw [get_map, get_map]
    have values := h key
    generalize xs.lookup key = v, ys.lookup key = w at values
    cases values with
    | none => exact .refl _
    | some alike => exact alike

theorem symm (h : Alike a b) : Alike b a := by
  induction h with
  | scalars value => exact .scalars value
  | lists length _ ih => exact .lists length.symm ih
  | maps keys _ ih => exact .maps (fun key => (keys key).symm) ih

theorem insert {xs ys : Entries} (h : Alike (.map xs) (.map ys)) (hv : Alike a b) (key : String) :
    Alike (.map (Keyed.insert xs key a)) (.map (Keyed.insert ys key b)) := by
  refine of_lookup fun other => ?_
  rw [Keyed.lookup_insert, Keyed.lookup_insert]
  split
  · exact .some hv
  · exact h.lookup other

theorem select {xs ys : Entries} {keep keep' : String × Tree → Bool}
    {change change' : String × Tree → Tree} (h : Alike (.map xs) (.map ys))
    (hx : (Keyed.keys xs).Nodup) (hy : (Keyed.keys ys).Nodup)
    (kept : ∀ key, keep (key, (Tree.map xs).get key) = keep' (key, (Tree.map ys).get key))
    (changed : ∀ key,
      Alike (change (key, (Tree.map xs).get key)) (change' (key, (Tree.map ys).get key))) :
    Alike (.map (Tree.select keep change xs)) (.map (Tree.select keep' change' ys)) := by
  refine of_lookup fun key => ?_
  have values : Option.Rel Alike (xs.lookup key) (ys.lookup key) := h.lookup key
  have kept := kept key
  have changed := changed key
  rw [get_map, get_map] at kept changed
  rw [lookup_select hx, lookup_select hy]
  generalize xs.lookup key = v, ys.lookup key = w at values kept changed
  cases values with
  | none => exact .none
  | some alike =>
    simp only [Option.getD_some] at kept changed
    simp only [Option.bind_some, kept]
    split
    · exact .some changed
    · exact .none

end Alike

/-- No map of the tree has a key twice. -/
abbrev distinct (tree : Tree) : Bool :=
  tree.regular fun _ => true

/-- Values behind a repeated key would be out of reach, and could be deeper. -/
theorem Alike.depth_le (h : Alike a b) (ha : a.distinct = true) : a.depth ≤ b.depth := by
  induction h with
  | scalars value => exact Nat.le_refl _
  | lists length _ ih =>
    rename_i xs ys _
    refine depth_list_le.mpr fun x hx => ?_
    obtain ⟨i, hi, rfl⟩ := List.getElem_of_mem hx
    have below := ih i (regular_item ha rfl i)
    rw [Tree.item, Tree.items, List.getElem?_eq_getElem hi, Tree.item, Tree.items,
      List.getElem?_eq_getElem (length ▸ hi)] at below
    exact Nat.le_trans below (depth_list_le.mp (Nat.le_refl _) _ (List.getElem_mem _))
  | maps keys _ ih =>
    rename_i xs ys _
    refine depth_map_le.mpr fun entry he => ?_
    have found : xs.lookup entry.1 = some entry.2 := Keyed.lookup_of_mem (regular_map.mp ha).1 he
    obtain ⟨value, hv⟩ := has_iff.mp ((keys entry.1).symm.trans (has_iff.mpr ⟨_, found⟩))
    have below := ih entry.1 (regular_get ha rfl entry.1)
    rw [get_map, get_map, found, hv] at below
    exact Nat.le_trans below (depth_map_le.mp (Nat.le_refl _) _ (Keyed.mem_of_lookup hv))

/-- The same tree twice, with the entries of its maps in any order. -/
structure Reordered (a b : Tree) : Prop where
  alike : Alike a b
  first : a.distinct = true
  second : b.distinct = true

namespace Reordered

theorem refl (h : a.distinct = true) : Reordered a a :=
  ⟨.refl a, h, h⟩

theorem scalar (value : Scalar) : Reordered (.scalar value) (.scalar value) :=
  ⟨.scalars value, rfl, rfl⟩

theorem null : Reordered .null .null :=
  scalar .null

theorem get (h : Reordered a b) (key : String) : Reordered (a.get key) (b.get key) :=
  ⟨h.alike.get key, regular_get h.first rfl key, regular_get h.second rfl key⟩

theorem follow (h : Reordered a b) (keys : List String) :
    Reordered (a.follow keys) (b.follow keys) := by
  induction keys generalizing a b with
  | nil => exact h
  | cons key keys ih => exact ih (h.get key)

theorem items (h : Reordered a b) : List.Forall₂ Reordered a.items b.items := by
  refine List.forall₂_iff_get.mpr ⟨h.alike.length, fun i hi hj => ?_⟩
  have alike := h.alike.item i
  rw [Tree.item, Tree.item, List.getElem?_eq_getElem hi, List.getElem?_eq_getElem hj] at alike
  exact ⟨alike, regular_items h.first _ (List.getElem_mem hi),
    regular_items h.second _ (List.getElem_mem hj)⟩

theorem list {xs ys : List Tree} (h : List.Forall₂ Reordered xs ys) :
    Reordered (.list xs) (.list ys) := by
  refine ⟨.lists h.length_eq fun i => ?_, regular_list.mpr ?_, regular_list.mpr ?_⟩
  · induction h generalizing i with
    | nil => exact .refl _
    | cons first rest ih =>
      cases i with
      | zero => exact first.alike
      | succ i => exact ih i
  · induction h with
    | nil => simp
    | cons first rest ih => exact List.forall_mem_cons.mpr ⟨first.first, ih⟩
  · induction h with
    | nil => simp
    | cons first rest ih => exact List.forall_mem_cons.mpr ⟨first.second, ih⟩

theorem entries (h : Reordered a b) : Reordered (.map a.entries) (.map b.entries) :=
  ⟨h.alike.entries, regular_map.mpr ⟨nodup_entries h.first, regular_entries h.first⟩,
    regular_map.mpr ⟨nodup_entries h.second, regular_entries h.second⟩⟩

theorem lookup (h : Reordered a b) (key : String) :
    Option.Rel Reordered (a.entries.lookup key) (b.entries.lookup key) := by
  have values := h.alike.lookup key
  generalize hv : a.entries.lookup key = v, hw : b.entries.lookup key = w at values
  cases values with
  | none => exact .none
  | some alike =>
    exact .some ⟨alike, regular_entries h.first _ (Keyed.mem_of_lookup hv),
      regular_entries h.second _ (Keyed.mem_of_lookup hw)⟩

/-- Maps without a key twice are reordered if lookups in them are. -/
theorem of_lookup {xs ys : Entries} (hx : (Keyed.keys xs).Nodup) (hy : (Keyed.keys ys).Nodup)
    (h : ∀ key, Option.Rel Reordered (xs.lookup key) (ys.lookup key)) :
    Reordered (.map xs) (.map ys) := by
  refine ⟨.of_lookup fun key => ?_, regular_map.mpr ⟨hx, fun entry he => ?_⟩,
    regular_map.mpr ⟨hy, fun entry he => ?_⟩⟩
  · have values := h key
    generalize xs.lookup key = v, ys.lookup key = w at values
    cases values with
    | none => exact .none
    | some value => exact .some value.alike
  · have values := h entry.1
    rw [Keyed.lookup_of_mem hx he] at values
    generalize ys.lookup entry.1 = w at values
    cases values with
    | some value => exact value.first
  · have values := h entry.1
    rw [Keyed.lookup_of_mem hy he] at values
    generalize xs.lookup entry.1 = v at values
    cases values with
    | some value => exact value.second

theorem insert {xs ys : Entries} (h : Reordered (.map xs) (.map ys)) (hv : Reordered a b)
    (key : String) :
    Reordered (.map (Keyed.insert xs key a)) (.map (Keyed.insert ys key b)) :=
  ⟨h.alike.insert hv.alike key, regular_insert h.first hv.first, regular_insert h.second hv.second⟩

theorem set (h : Reordered a b) (hv : Reordered c d) (key : String) :
    Reordered (a.set key c) (b.set key d) := by
  obtain ⟨alike, first, second⟩ := h
  cases alike with
  | scalars value => exact scalar value
  | lists length items => exact ⟨.lists length items, first, second⟩
  | maps keys values => exact insert ⟨.maps keys values, first, second⟩ hv key

theorem map_values {xs ys : Entries} {f g : String → Tree → Tree}
    (h : Reordered (.map xs) (.map ys))
    (hf : ∀ key v w, Reordered v w → Reordered (f key v) (g key w)) :
    Reordered (.map (xs.map fun entry => (entry.1, f entry.1 entry.2)))
      (.map (ys.map fun entry => (entry.1, g entry.1 entry.2))) := by
  refine of_lookup ?_ ?_ fun key => ?_
  · simpa [Keyed.keys, Function.comp_def] using (regular_map.mp h.first).1
  · simpa [Keyed.keys, Function.comp_def] using (regular_map.mp h.second).1
  · rw [Keyed.lookup_map, Keyed.lookup_map]
    have values : Option.Rel Reordered (xs.lookup key) (ys.lookup key) := h.lookup key
    generalize xs.lookup key = v, ys.lookup key = w at values
    cases values with
    | none => exact .none
    | some value => exact .some (hf key _ _ value)

/-- Choosing entries by a test that cannot tell reordered values apart. -/
theorem filter {xs ys : Entries} {keep : String × Tree → Bool} (h : Reordered (.map xs) (.map ys))
    (hk : ∀ key v w, Reordered v w → keep (key, v) = keep (key, w)) :
    Reordered (.map (xs.filter keep)) (.map (ys.filter keep)) := by
  have chosen : ∀ zs : Entries, zs.filter keep = select keep Prod.snd zs := fun zs => by
    simp [select]
  rw [chosen, chosen]
  exact ⟨h.alike.select (regular_map.mp h.first).1 (regular_map.mp h.second).1
    (fun key => hk key _ _ (h.get key)) fun key => h.alike.get key,
    regular_select h.first (regular_map.mp h.first).2,
    regular_select h.second (regular_map.mp h.second).2⟩

theorem orElse (h : Reordered a b) (ho : Reordered c d) :
    Reordered (a.orElse c) (b.orElse d) := by
  unfold Tree.orElse
  rw [h.alike.truthy]
  split
  · exact h
  · exact ho

theorem depth (h : Reordered a b) : a.depth = b.depth :=
  Nat.le_antisymm (h.alike.depth_le h.first) (h.alike.symm.depth_le h.second)

/-- Reordered maps are copied value by value with the same outcome. -/
theorem values_depth_le {xs ys : Entries} (h : Reordered (.map xs) (.map ys)) (n : Nat) :
    (∀ entry ∈ xs, entry.2.depth ≤ n) ↔ ∀ entry ∈ ys, entry.2.depth ≤ n := by
  rw [← depth_map_le, ← depth_map_le, h.depth]

theorem items_depth_le {xs ys : List Tree} (h : List.Forall₂ Reordered xs ys) (n : Nat) :
    (∀ item ∈ xs, item.depth ≤ n) ↔ ∀ item ∈ ys, item.depth ≤ n := by
  rw [← depth_list_le, ← depth_list_le, (list h).depth]

end Reordered

/-- Lists keep the order of their items. -/
theorem reordered_list_iff {xs ys : List Tree} :
    Reordered (.list xs) (.list ys) ↔ List.Forall₂ Reordered xs ys :=
  ⟨fun h => h.items, .list⟩

/-- Entries that are related in their places have the same keys, and lookups in them are related. -/
theorem lookup_of_forall₂ {xs ys : Entries}
    (h : List.Forall₂ (fun e f => e.1 = f.1 ∧ Reordered e.2 f.2) xs ys) :
    Keyed.keys xs = Keyed.keys ys ∧
      ∀ key, Option.Rel Reordered (xs.lookup key) (ys.lookup key) := by
  induction h with
  | nil => exact ⟨rfl, fun _ => .none⟩
  | cons first rest ih =>
    rename_i e f es fs
    obtain ⟨k, v⟩ := e
    obtain ⟨l, w⟩ := f
    obtain ⟨rfl, value⟩ := first
    refine ⟨congrArg (List.cons k) ih.1, fun key => ?_⟩
    rw [Keyed.lookup_cons, Keyed.lookup_cons]
    split
    · exact .some value
    · exact ih.2 key

theorem Reordered.of_forall₂ {xs ys : Entries} (hn : (Keyed.keys xs).Nodup)
    (h : List.Forall₂ (fun e f => e.1 = f.1 ∧ Reordered e.2 f.2) xs ys) :
    Reordered (.map xs) (.map ys) := by
  obtain ⟨keys, values⟩ := lookup_of_forall₂ h
  exact .of_lookup hn (keys ▸ hn) values

variable {eq : Scalar → Scalar → Bool}

theorem sameItemsBy_iff {xs ys : List Tree} :
    sameItemsBy eq xs ys = true ↔ xs.length = ys.length ∧
      ∀ i < xs.length, sameBy eq ((Tree.list xs).item i) ((Tree.list ys).item i) = true := by
  induction xs generalizing ys with
  | nil => cases ys <;> simp [sameItemsBy]
  | cons x xs ih =>
    cases ys with
    | nil => simp [sameItemsBy]
    | cons y ys =>
      rw [sameItemsBy, Bool.and_eq_true, ih]
      constructor
      · rintro ⟨first, length, rest⟩
        refine ⟨congrArg Nat.succ length, fun i hi => ?_⟩
        cases i with
        | zero => exact first
        | succ i => exact rest i (Nat.lt_of_succ_lt_succ hi)
      · rintro ⟨length, items⟩
        exact ⟨items 0 (Nat.succ_pos _), Nat.succ.inj length,
          fun i hi => items (i + 1) (Nat.succ_lt_succ hi)⟩

/-- Where the first map has no key twice, equality goes by the keys alone. -/
theorem sameBy_maps_iff {xs ys : Entries} (hn : (Keyed.keys xs).Nodup) :
    sameBy eq (.map xs) (.map ys) = true ↔
      (∀ key, (Tree.map xs).has key = (Tree.map ys).has key) ∧
      ∀ key, (Tree.map xs).has key = true →
        sameBy eq ((Tree.map xs).get key) ((Tree.map ys).get key) = true := by
  rw [sameBy, Bool.and_eq_true, sameEntriesBy_iff, List.all_eq_true]
  constructor
  · rintro ⟨there, values⟩
    have value : ∀ key, (Tree.map xs).has key = true → ∃ y, ys.lookup key = some y ∧
        sameBy eq ((Tree.map xs).get key) y = true := by
      intro key hk
      obtain ⟨x, hl⟩ := has_iff.mp hk
      obtain ⟨y, hy, same⟩ := values (key, x) (Keyed.mem_of_lookup hl)
      rw [get_map, hl]
      exact ⟨y, hy, same⟩
    refine ⟨fun key => ?_, fun key hk => ?_⟩
    · rw [Bool.eq_iff_iff]
      constructor
      · intro hk
        obtain ⟨y, hy, _⟩ := value key hk
        exact has_iff.mpr ⟨y, hy⟩
      · intro hk
        obtain ⟨y, hy⟩ := has_iff.mp hk
        exact there (key, y) (Keyed.mem_of_lookup hy)
    · obtain ⟨y, hy, same⟩ := value key hk
      rw [get_map ys, hy]
      exact same
  · rintro ⟨there, values⟩
    refine ⟨fun entry he => (there entry.1).trans (Keyed.has_of_mem he), fun entry he => ?_⟩
    have hk : (Tree.map xs).has entry.1 = true := Keyed.has_of_mem he
    obtain ⟨y, hy⟩ := has_iff.mp ((there entry.1).symm.trans hk)
    have same := values entry.1 hk
    rw [get_map, get_map, Keyed.lookup_of_mem hn he, hy] at same
    exact ⟨y, hy, same⟩

/-- Whether two trees are equal does not depend on the order of their entries. -/
theorem sameBy_congr (h : Reordered a b) (hs : Reordered c d) :
    sameBy eq a c = sameBy eq b d := by
  obtain ⟨alike, first, second⟩ := h
  obtain ⟨others, -, -⟩ := hs
  induction alike generalizing c d with
  | scalars value => cases others <;> simp [sameBy]
  | lists length items ih =>
    rename_i xs ys
    cases others with
    | scalars value => simp [sameBy]
    | maps keys values => simp [sameBy]
    | lists length' items' =>
      rename_i us vs
      rw [sameBy, sameBy, Bool.eq_iff_iff, sameItemsBy_iff, sameItemsBy_iff, length, length']
      refine and_congr_right fun _ => forall₂_congr fun i hi => ?_
      rw [ih i (regular_item first rfl i) (regular_item second rfl i) (items' i)]
  | maps keys values ih =>
    rename_i xs ys
    cases others with
    | scalars value => simp [sameBy]
    | lists length items => simp [sameBy]
    | maps keys' values' =>
      rename_i us vs
      rw [Bool.eq_iff_iff, sameBy_maps_iff (regular_map.mp first).1,
        sameBy_maps_iff (regular_map.mp second).1]
      refine and_congr (forall_congr' fun key => ?_) (forall_congr' fun key => ?_)
      · rw [keys, keys']
      · rw [keys, ih key (regular_get first rfl key) (regular_get second rfl key) (values' key)]

/-- Scalars are equal only to themselves. -/
def exactly (s t : Scalar) : Bool :=
  s = t

theorem alike_of_exactly (h : sameBy exactly a b = true) (hd : a.distinct = true) : Alike a b := by
  induction a generalizing b with
  | scalar value =>
    cases b with
    | scalar other =>
      obtain rfl : value = other := by simpa [sameBy, exactly] using h
      exact .scalars value
    | list items => simp [sameBy] at h
    | map entries => simp [sameBy] at h
  | list items ih =>
    cases b with
    | scalar value => simp [sameBy] at h
    | map entries => simp [sameBy] at h
    | list others =>
      obtain ⟨length, same⟩ := sameItemsBy_iff.mp h
      refine .lists length fun i => ?_
      by_cases hi : i < items.length
      · have here : (Tree.list items).item i = items[i] := by simp [item, Tree.items, hi]
        have same := same i hi
        rw [here] at same ⊢
        exact ih _ (List.getElem_mem hi) same (regular_list.mp hd _ (List.getElem_mem hi))
      · have hj : ¬i < others.length := length ▸ hi
        simp only [item, Tree.items, List.getElem?_eq_none (Nat.le_of_not_lt hi),
          List.getElem?_eq_none (Nat.le_of_not_lt hj)]
        exact .refl _
  | map entries ih =>
    cases b with
    | scalar value => simp [sameBy] at h
    | list items => simp [sameBy] at h
    | map others =>
      obtain ⟨hn, hv⟩ := regular_map.mp hd
      obtain ⟨keys, same⟩ := (sameBy_maps_iff hn).mp h
      refine .maps keys fun key => ?_
      cases hk : (Tree.map entries).has key with
      | true =>
        obtain ⟨value, hl⟩ := has_iff.mp hk
        have here : (Tree.map entries).get key = value := by rw [get_map, hl]; rfl
        have same := same key hk
        rw [here] at same ⊢
        have member := Keyed.mem_of_lookup hl
        exact ih _ member same (hv _ member)
      | false =>
        rw [get_of_not_has hk, get_of_not_has (keys key ▸ hk)]
        exact .refl _

theorem exactly_self (hd : a.distinct = true) : sameBy exactly a a = true := by
  induction a with
  | scalar value => simp [sameBy, exactly]
  | list items ih =>
    refine sameItemsBy_iff.mpr ⟨rfl, fun i hi => ?_⟩
    have here : (Tree.list items).item i = items[i] := by simp [item, Tree.items, hi]
    rw [here]
    exact ih _ (List.getElem_mem hi) (regular_list.mp hd _ (List.getElem_mem hi))
  | map entries ih =>
    obtain ⟨hn, hv⟩ := regular_map.mp hd
    refine (sameBy_maps_iff hn).mpr ⟨fun _ => rfl, fun key hk => ?_⟩
    obtain ⟨value, hl⟩ := has_iff.mp hk
    have here : (Tree.map entries).get key = value := by rw [get_map, hl]; rfl
    rw [here]
    exact ih _ (Keyed.mem_of_lookup hl) (hv _ (Keyed.mem_of_lookup hl))

/-- Whether trees are reordered can be computed. -/
theorem reordered_iff : Reordered a b ↔
    (a.distinct && b.distinct && sameBy exactly a b) = true := by
  rw [Bool.and_eq_true, Bool.and_eq_true]
  constructor
  · intro h
    refine ⟨⟨h.first, h.second⟩, ?_⟩
    rw [← sameBy_congr (.refl h.first) h]
    exact exactly_self h.first
  · rintro ⟨⟨first, second⟩, same⟩
    exact ⟨alike_of_exactly same first, first, second⟩

instance : Decidable (Reordered a b) :=
  decidable_of_iff _ reordered_iff.symm

theorem Reordered.same (h : Reordered a b) (hs : Reordered c d) : a.same c = b.same d :=
  sameBy_congr h hs

theorem Reordered.agrees (h : Reordered a b) (hs : Reordered c d) : a.agrees c = b.agrees d :=
  sameBy_congr h hs

end Tree

end TenantSizing
