import TenantSizing.Tree.Equality
import TenantSizing.Tree.Path

namespace TenantSizing

section Appearance

variable {α : Type} [BEq α] [LawfulBEq α]

/-- Puts an item behind the others unless it is among them. -/
def enlist (items : List α) (item : α) : List α :=
  if item ∈ items then items else items ++ [item]

/-- Items that are enlisted in turn stand behind those held, in order of first appearance. -/
theorem foldl_enlist (held items : List α) :
    items.foldl enlist held = held ++ (items.removeAll held).eraseDups := by
  induction items generalizing held with
  | nil => simp
  | cons item rest ih =>
    rw [List.foldl_cons, ih, enlist]
    by_cases there : item ∈ held
    · rw [if_pos there]
      simp [List.removeAll, there]
    · rw [if_neg there]
      have apart : rest.removeAll (held ++ [item]) =
          (rest.removeAll held).filter fun other => !other == item := by
        rw [List.removeAll, List.removeAll, List.filter_filter]
        refine List.filter_congr fun other _ => ?_
        by_cases hi : other = item <;> simp [hi]
      have first : (item :: rest).removeAll held = item :: rest.removeAll held := by
        simp [List.removeAll, there]
      rw [apart, first, List.eraseDups_cons, List.append_assoc, List.singleton_append]

theorem enlist_enlist (items : List α) (item : α) :
    enlist (enlist items item) item = enlist items item := by
  have there : item ∈ enlist items item := by
    unfold enlist
    split
    · assumption
    · simp
  rw [enlist.eq_1 (enlist items item), if_pos there]

theorem enlist_cons {item other : α} (hi : item ≠ other) (items : List α) :
    enlist (other :: items) item = other :: enlist items item := by
  by_cases there : item ∈ items <;> simp [enlist, there, hi]

theorem foldl_enlist_nil (items : List α) : items.foldl enlist [] = items.eraseDups := by
  rw [foldl_enlist]
  simp

theorem eraseDups_concat (items : List α) (item : α) :
    (items ++ [item]).eraseDups = enlist items.eraseDups item := by
  rw [← foldl_enlist_nil, ← foldl_enlist_nil, List.foldl_append]
  rfl

theorem nodup_enlist {items : List α} (h : items.Nodup) (item : α) : (enlist items item).Nodup := by
  unfold enlist
  split
  · exact h
  · rename_i absent
    exact List.nodup_append.mpr ⟨h, by simp, by
      rintro other ho _ hi rfl
      exact absent (List.mem_singleton.mp hi ▸ ho)⟩

theorem nodup_eraseDups (items : List α) : items.eraseDups.Nodup := by
  rw [← foldl_enlist_nil]
  exact List.foldlRecOn (motive := List.Nodup) _ _ List.nodup_nil
    fun _ held item _ => nodup_enlist held item

end Appearance

namespace Keyed

variable {α : Type}

theorem mem_of_lookup {entries : Keyed α} {key : String} {value : α}
    (h : entries.lookup key = some value) : (key, value) ∈ entries := by
  induction entries with
  | nil => simp at h
  | cons entry rest ih =>
    obtain ⟨k, v⟩ := entry
    rw [lookup_cons] at h
    split at h
    · rename_i hk
      cases h
      simp [hk]
    · exact List.mem_cons_of_mem _ (ih h)

theorem lookup_of_mem {entries : Keyed α} (hn : (keys entries).Nodup) {key : String} {value : α}
    (h : (key, value) ∈ entries) : entries.lookup key = some value := by
  induction entries with
  | nil => simp at h
  | cons entry rest ih =>
    obtain ⟨k, v⟩ := entry
    simp only [keys, List.map_cons, List.nodup_cons] at hn
    rw [lookup_cons]
    rcases List.mem_cons.mp h with he | ht
    · cases he
      simp
    · have hne : key ≠ k := by
        intro he
        subst he
        exact hn.1 (List.mem_map.mpr ⟨(key, value), ht, rfl⟩)
      rw [if_neg hne]
      exact ih hn.2 ht

theorem has_of_mem {entries : Keyed α} {entry : String × α} (h : entry ∈ entries) :
    has entries entry.1 = true :=
  has_iff_mem_keys.mpr (List.mem_map.mpr ⟨entry, h, rfl⟩)

theorem lookup_map {β : Type} (entries : Keyed α) (f : String → α → β) (key : String) :
    (entries.map fun entry => (entry.1, f entry.1 entry.2)).lookup key =
      (entries.lookup key).map (f key) := by
  induction entries with
  | nil => rfl
  | cons entry rest ih =>
    obtain ⟨k, v⟩ := entry
    rw [List.map_cons, lookup_cons, lookup_cons]
    by_cases hk : key = k
    · simp [hk]
    · rw [if_neg hk, if_neg hk]
      exact ih

theorem insert_self {entries : Keyed α} {key : String} {value : α}
    (h : entries.lookup key = some value) : insert entries key value = entries := by
  induction entries with
  | nil => simp at h
  | cons entry rest ih =>
    obtain ⟨k, v⟩ := entry
    rw [lookup_cons] at h
    by_cases hk : k = key
    · rw [if_pos hk.symm] at h
      cases h
      simp [insert, hk]
    · rw [if_neg (Ne.symm hk)] at h
      simp [insert, hk, ih h]

theorem mem_insert {entries : Keyed α} {key : String} {value : α} {entry : String × α}
    (h : entry ∈ insert entries key value) : entry = (key, value) ∨ entry ∈ entries := by
  induction entries with
  | nil => simpa [insert] using h
  | cons first rest ih =>
    obtain ⟨k, v⟩ := first
    by_cases hk : k = key
    · simp only [insert, hk, ↓reduceIte, List.mem_cons] at h
      rcases h with he | ht
      · exact .inl he
      · exact .inr (List.mem_cons_of_mem _ ht)
    · simp only [insert, hk, ↓reduceIte, List.mem_cons] at h
      rcases h with he | ht
      · exact .inr (List.mem_cons.mpr (.inl he))
      · rcases ih ht with hn | hm
        · exact .inl hn
        · exact .inr (List.mem_cons_of_mem _ hm)

theorem keys_insert (entries : Keyed α) (key : String) (value : α) :
    keys (insert entries key value) = enlist (keys entries) key := by
  induction entries with
  | nil => rfl
  | cons entry rest ih =>
    obtain ⟨k, v⟩ := entry
    by_cases hk : k = key
    · simp [insert, keys, enlist, hk]
    · rw [insert, if_neg hk, keys, List.map_cons, keys.eq_1 ((k, v) :: rest), List.map_cons,
        enlist_cons (Ne.symm hk)]
      exact congrArg _ ih

theorem nodup_insert {entries : Keyed α} (h : (keys entries).Nodup) (key : String) (value : α) :
    (keys (insert entries key value)).Nodup := by
  rw [keys_insert]
  exact nodup_enlist h key

theorem mem_without {entries others : Keyed α} {entry : String × α} :
    entry ∈ without entries others ↔ entry ∈ entries ∧ has others entry.1 = false := by
  simp [without]

/-- Nothing is left of entries whose keys are all among those of the others. -/
theorem without_eq_nil {entries others : Keyed α}
    (h : ∀ entry ∈ entries, has others entry.1 = true) : without entries others = [] := by
  apply List.filter_eq_nil_iff.mpr
  intro entry he
  simp [h entry he]

/-- Entries united with those that others have beyond them have no key twice. -/
theorem nodup_unite {entries others : Keyed α} (hn : (keys entries).Nodup)
    (hm : (keys others).Nodup) : (keys (entries ++ without others entries)).Nodup := by
  rw [keys, List.map_append]
  refine List.nodup_append.mpr ⟨hn, hm.sublist (List.filter_sublist.map _), ?_⟩
  intro key hk other ho he
  subst he
  obtain ⟨entry, he, rfl⟩ := List.mem_map.mp ho
  have hh := (mem_without.mp he).2
  rw [has_iff_mem_keys.mpr hk] at hh
  cases hh

end Keyed

namespace Tree

/-- Induction over a tree: over a list by its items, over a map by the values of its entries. -/
@[induction_eliminator]
theorem induct {motive : Tree → Prop} (scalar : ∀ value, motive (.scalar value))
    (list : ∀ items, (∀ item ∈ items, motive item) → motive (.list items))
    (map : ∀ entries, (∀ entry ∈ entries, motive entry.2) → motive (.map entries))
    (tree : Tree) : motive tree :=
  @Tree.rec motive (fun items => ∀ item ∈ items, motive item)
    (fun entries => ∀ entry ∈ entries, motive entry.2) (fun entry => motive entry.2)
    scalar list map (by simp)
    (fun _ _ hf hr => List.forall_mem_cons.mpr ⟨hf, hr⟩) (by simp)
    (fun _ _ hf hr => List.forall_mem_cons.mpr ⟨hf, hr⟩) (fun _ _ hv => hv) tree

/-- Induction over a tree by its items and its values together, for what tells more apart than lists
and maps. -/
theorem induct_members {motive : Tree → Prop}
    (node : ∀ tree : Tree, (∀ item ∈ tree.items, motive item) →
      (∀ entry ∈ tree.entries, motive entry.2) → motive tree)
    (tree : Tree) : motive tree := by
  induction tree with
  | scalar value => exact node _ nofun nofun
  | list items ih => exact node _ ih nofun
  | map entries ih => exact node _ nofun ih

theorem isMap_iff {tree : Tree} : tree.isMap = true ↔ ∃ entries, tree = .map entries := by
  cases tree <;> simp [isMap]

theorem isNull_iff {tree : Tree} : tree.isNull = true ↔ tree = .null := by
  cases tree with
  | scalar value => cases value <;> simp [isNull]
  | list items => simp [isNull]
  | map entries => simp [isNull]

theorem follow_of_not_map {tree : Tree} (h : tree.isMap = false) {keys : List String}
    (hk : keys ≠ []) : tree.follow keys = .null := by
  cases keys with
  | nil => exact absurd rfl hk
  | cons key keys => rw [follow_cons, get_of_not_map h, follow_null]

theorem at?_of_not_map {tree : Tree} (h : tree.isMap = false) {keys : List String}
    (hk : keys ≠ []) : tree.at? (keys.map .key) = none := by
  cases keys with
  | nil => exact absurd rfl hk
  | cons key keys =>
    cases tree with
    | map entries => cases h
    | list items => rfl
    | scalar value => rfl

/-- Below a tree there is what lies below its entries. -/
theorem follow_entries (tree : Tree) {keys : List String} (hk : keys ≠ []) :
    (Tree.map tree.entries).follow keys = tree.follow keys := by
  cases keys with
  | nil => exact absurd rfl hk
  | cons key keys => rfl

mutual

/-- A tree is regular if no map in it has a key twice and every scalar passes a test. -/
def regular (pass : Scalar → Bool) : Tree → Bool
  | .scalar value => pass value
  | .list items => regularItems pass items
  | .map entries => decide (Keyed.keys entries).Nodup && regularEntries pass entries

def regularItems (pass : Scalar → Bool) : List Tree → Bool
  | [] => true
  | item :: rest => regular pass item && regularItems pass rest

def regularEntries (pass : Scalar → Bool) : Entries → Bool
  | [] => true
  | (_, value) :: rest => regular pass value && regularEntries pass rest

end

variable {pass : Scalar → Bool}

theorem regular_list {items : List Tree} :
    regular pass (.list items) = true ↔ ∀ item ∈ items, regular pass item = true := by
  rw [regular]
  induction items with
  | nil => simp [regularItems]
  | cons item rest ih => simp [regularItems, ih]

theorem regularEntries_iff {entries : Entries} :
    regularEntries pass entries = true ↔ ∀ entry ∈ entries, regular pass entry.2 = true := by
  induction entries with
  | nil => simp [regularEntries]
  | cons entry rest ih => simp [regularEntries, ih]

theorem regular_map {entries : Entries} :
    regular pass (.map entries) = true ↔
      (Keyed.keys entries).Nodup ∧ ∀ entry ∈ entries, regular pass entry.2 = true := by
  rw [regular, Bool.and_eq_true, decide_eq_true_iff, regularEntries_iff]

theorem regular_mono {other : Scalar → Bool} (hp : ∀ value, pass value = true → other value = true)
    {tree : Tree} (h : tree.regular pass = true) : tree.regular other = true := by
  induction tree with
  | scalar value => exact hp value h
  | list items ih =>
    exact regular_list.mpr fun item hi => ih item hi (regular_list.mp h item hi)
  | map entries ih =>
    obtain ⟨hn, hv⟩ := regular_map.mp h
    exact regular_map.mpr ⟨hn, fun entry he => ih entry he (hv entry he)⟩

theorem regular_entries {tree : Tree} (h : tree.regular pass = true) :
    ∀ entry ∈ tree.entries, regular pass entry.2 = true := by
  cases tree with
  | map entries => exact (regular_map.mp h).2
  | list items => simp [entries]
  | scalar value => simp [entries]

theorem regular_items {tree : Tree} (h : tree.regular pass = true) :
    ∀ item ∈ tree.items, regular pass item = true := by
  cases tree with
  | list items => exact regular_list.mp h
  | map entries => simp [items]
  | scalar value => simp [items]

theorem nodup_entries {tree : Tree} (h : tree.regular pass = true) :
    (Keyed.keys tree.entries).Nodup := by
  cases tree with
  | map entries => exact (regular_map.mp h).1
  | list items => simp [entries, Keyed.keys]
  | scalar value => simp [entries, Keyed.keys]

/-- What a lookup gives, or the null where there is none, is regular. -/
theorem regular_lookup {entries : Entries}
    (hv : ∀ entry ∈ entries, regular pass entry.2 = true) (hp : pass .null = true) (key : String) :
    regular pass ((entries.lookup key).getD .null) = true := by
  cases hl : entries.lookup key with
  | none => exact hp
  | some value => exact hv _ (Keyed.mem_of_lookup hl)

theorem regular_get {tree : Tree} (h : tree.regular pass = true) (hp : pass .null = true)
    (key : String) : (tree.get key).regular pass = true :=
  regular_lookup (regular_entries h) hp key

theorem regular_insert {entries : Entries} {key : String} {value : Tree}
    (h : regular pass (.map entries) = true) (hv : value.regular pass = true) :
    regular pass (.map (Keyed.insert entries key value)) = true := by
  obtain ⟨hn, he⟩ := regular_map.mp h
  refine regular_map.mpr ⟨Keyed.nodup_insert hn key value, ?_⟩
  intro entry hm
  rcases Keyed.mem_insert hm with rfl | hm
  · exact hv
  · exact he entry hm

theorem regular_sublist {entries fewer : Entries} (h : regular pass (.map entries) = true)
    (hs : fewer.Sublist entries) : regular pass (.map fewer) = true := by
  obtain ⟨hn, hv⟩ := regular_map.mp h
  exact regular_map.mpr ⟨hn.sublist (hs.map _), fun entry he => hv entry (hs.subset he)⟩

end Tree

namespace Scalar

/-- Any value but the number that equals nothing. -/
def isComparable : Scalar → Bool
  | .float .nan => false
  | _ => true

theorem same_self {value : Scalar} (h : value.isComparable = true) : same value value = true := by
  cases value with
  | float x => cases x <;> simp_all [isComparable, same, Binary64.same]
  | null | bool _ | int _ | text _ => simp [same]

theorem same_comm (a b : Scalar) : a.same b = b.same a := by
  cases a with
  | float x =>
    cases b with
    | float y => cases x <;> cases y <;> simp only [same, Binary64.same] <;> grind
    | null | bool _ | int _ | text _ => rfl
  | null | bool _ | int _ | text _ => cases b <;> simp [same, eq_comm]

end Scalar

namespace Tree

variable {eq : Scalar → Scalar → Bool}

theorem sameEntriesBy_iff {xs ys : Entries} :
    sameEntriesBy eq xs ys = true ↔
      ∀ entry ∈ xs, ∃ y, ys.lookup entry.1 = some y ∧ sameBy eq entry.2 y = true := by
  induction xs with
  | nil => simp [sameEntriesBy]
  | cons entry rest ih =>
    obtain ⟨key, x⟩ := entry
    rw [sameEntriesBy, Bool.and_eq_true, ih]
    cases hl : ys.lookup key with
    | none => simp [hl]
    | some y => simp [hl]

theorem sameItemsBy_self {eq : Scalar → Scalar → Bool} {items : List Tree}
    (h : ∀ item ∈ items, sameBy eq item item = true) : sameItemsBy eq items items = true := by
  induction items with
  | nil => rfl
  | cons item rest ih =>
    rw [sameItemsBy, h item List.mem_cons_self, Bool.true_and]
    exact ih fun other ho => h other (List.mem_cons_of_mem _ ho)

/-- Equality of trees is reflexive where no number is `nan` and no key is there twice. -/
theorem same_self {tree : Tree} (h : tree.regular Scalar.isComparable = true) :
    tree.same tree = true := by
  rw [same]
  induction tree with
  | scalar value => exact Scalar.same_self h
  | list items ih =>
    rw [sameBy]
    exact sameItemsBy_self fun item hi => ih item hi (regular_list.mp h item hi)
  | map entries ih =>
    obtain ⟨hn, hv⟩ := regular_map.mp h
    rw [sameBy, Bool.and_eq_true]
    refine ⟨List.all_eq_true.mpr fun entry he => Keyed.has_of_mem he, ?_⟩
    exact sameEntriesBy_iff.mpr fun entry he =>
      ⟨entry.2, Keyed.lookup_of_mem hn he, ih entry he (hv entry he)⟩

theorem same_get {a b : Tree} (h : a.same b = true) (key : String) :
    (a.get key).same (b.get key) = true := by
  cases a with
  | scalar value => cases b <;> simp_all [same, sameBy, get, entries, Scalar.same]
  | list items => cases b <;> simp_all [same, sameBy, get, entries, Scalar.same]
  | map xs =>
    cases b with
    | scalar value => simp [same, sameBy] at h
    | list items => simp [same, sameBy] at h
    | map ys =>
      rw [same, sameBy, Bool.and_eq_true] at h
      obtain ⟨hk, hv⟩ := h
      rw [get_map, get_map]
      cases hx : xs.lookup key with
      | some x =>
        obtain ⟨y, hy, he⟩ := sameEntriesBy_iff.mp hv (key, x) (Keyed.mem_of_lookup hx)
        rw [hy]
        exact he
      | none =>
        cases hy : ys.lookup key with
        | none => rfl
        | some y =>
          have := List.all_eq_true.mp hk (key, y) (Keyed.mem_of_lookup hy)
          simp [Keyed.has, hx] at this

theorem same_kind {a b : Tree} (h : a.same b = true) : a.kind = b.kind := by
  cases a <;> cases b <;> simp_all [same, sameBy, kind]

theorem same_null {tree : Tree} : Tree.null.same tree = tree.isNull := by
  cases tree with
  | scalar value => cases value <;> rfl
  | list items => rfl
  | map entries => rfl

end Tree

end TenantSizing
