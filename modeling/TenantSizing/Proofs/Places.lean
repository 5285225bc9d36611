import TenantSizing.Proofs.Alike

namespace TenantSizing

/-- The last map key above a child, where `key` is the last one above its parent. -/
def Step.keyBelow (key : Option String) : Step → Option String
  | .key name => some name
  | .index _ => key

/-- The last map key of a path, if there is one; `key` stands above the path. -/
def Path.lastKeyFrom (key : Option String) (path : Path) : Option String :=
  path.foldl Step.keyBelow key

/-- The last map key of a path. The items of a list are under the key of the list. -/
def Path.lastKey (path : Path) : Option String :=
  path.lastKeyFrom none

namespace Tree

variable {a b x y : Tree} {path : Path} {step : Step} {key : Option String}

theorem at?_singleton (tree : Tree) (step : Step) : tree.at? [step] = tree.child? step := by
  rw [at?_cons]
  cases tree.child? step <;> rfl

theorem child?_scalar (value : Scalar) (step : Step) : (Tree.scalar value).child? step = none := by
  cases step <;> rfl

/-- Induction over a tree by its children. -/
theorem induct_children {motive : Tree → Prop}
    (h : ∀ tree, (∀ step child, tree.child? step = some child → motive child) → motive tree)
    (tree : Tree) : motive tree := by
  induction tree with
  | scalar value =>
    refine h _ fun step child hc => ?_
    rw [child?_scalar] at hc
    cases hc
  | list items ih =>
    refine h _ fun step child hc => ?_
    cases step with
    | key name => cases hc
    | index i => exact ih child (List.mem_of_getElem? hc)
  | map entries ih =>
    refine h _ fun step child hc => ?_
    cases step with
    | key name => exact ih _ (Keyed.mem_of_lookup hc)
    | index i => cases hc

theorem regular_child {pass : Scalar → Bool} (h : a.regular pass = true)
    (hx : a.child? step = some x) : x.regular pass = true := by
  cases a with
  | scalar value =>
    rw [child?_scalar] at hx
    cases hx
  | list items =>
    cases step with
    | key name => cases hx
    | index i => exact regular_list.mp h x (List.mem_of_getElem? hx)
  | map entries =>
    cases step with
    | key name => exact (regular_map.mp h).2 _ (Keyed.mem_of_lookup hx)
    | index i => cases hx

theorem regular_at? {pass : Scalar → Bool} (h : a.regular pass = true) (hx : a.at? path = some x) :
    x.regular pass = true := by
  induction path generalizing a with
  | nil =>
    cases hx
    exact h
  | cons step path ih =>
    rw [at?_cons] at hx
    obtain ⟨child, hc, hx⟩ := Option.bind_eq_some_iff.mp hx
    exact ih (regular_child h hc) hx

theorem kind_of_child (hx : a.child? step = some x) : a.kind ≠ .scalar := by
  cases a with
  | scalar value =>
    rw [child?_scalar] at hx
    cases hx
  | list items => simp [kind]
  | map entries => simp [kind]

theorem ne_null_of_kind (h : a.kind ≠ .scalar) : a ≠ .null := by
  rintro rfl
  exact h rfl

/-- How two trees meet: one of them is null, or they are of two kinds, two scalars, or containers of
one kind. -/
inductive Meeting : Tree → Tree → Prop where
  | null_left (b : Tree) : Meeting .null b
  | null_right (a : Tree) : Meeting a .null
  | clash {a b : Tree} (first_filled : a ≠ .null) (second_filled : b ≠ .null)
      (kinds : a.kind ≠ b.kind) : Meeting a b
  | scalars (s t : Scalar) (first_filled : s ≠ .null) (second_filled : t ≠ .null) :
      Meeting (.scalar s) (.scalar t)
  | containers {a b : Tree} (kinds : a.kind = b.kind) (container : a.kind ≠ .scalar) : Meeting a b

theorem meeting (a b : Tree) : Meeting a b := by
  by_cases ha : a = .null
  · rw [ha]
    exact .null_left b
  by_cases hb : b = .null
  · rw [hb]
    exact .null_right a
  by_cases hk : a.kind = b.kind
  · cases a with
    | map cs => exact .containers hk nofun
    | list xs => exact .containers hk nofun
    | scalar s =>
      cases b with
      | map ss => cases hk
      | list ys => cases hk
      | scalar t => exact .scalars s t (fun he => ha (by rw [he])) fun he => hb (by rw [he])
  · exact .clash ha hb hk

theorem same_child (h : a.same b = true) (step : Step) :
    Option.Rel (fun x y => x.same y = true) (a.child? step) (b.child? step) := by
  cases step with
  | key name =>
    rw [child?_key, child?_key, ← same_has h name]
    cases a.has name with
    | true => exact .some (same_get h name)
    | false => exact .none
  | index i =>
    have kinds := same_kind h
    rw [child?_index, child?_index]
    cases hl : a.isList with
    | false =>
      have hb : b.isList = false := by
        rw [Bool.eq_false_iff, ne_eq, isList_iff_kind, ← kinds, ← isList_iff_kind, hl]
        simp
      rw [items_of_not_list hl, items_of_not_list hb]
      exact .none
    | true =>
      obtain ⟨xs, rfl⟩ := isList_iff.mp hl
      obtain ⟨ys, rfl⟩ := isList_iff.mp (isList_iff_kind.mpr kinds.symm)
      obtain ⟨length, there⟩ := same_items h
      by_cases hi : i < xs.length
      · rw [if_pos (show i < (Tree.list xs).items.length from hi),
          if_pos (show i < (Tree.list ys).items.length from length ▸ hi)]
        exact .some (there i)
      · rw [if_neg (show ¬i < (Tree.list xs).items.length from hi),
          if_neg (show ¬i < (Tree.list ys).items.length from length ▸ hi)]
        exact .none

theorem sameItemsBy_of_children {xs ys : List Tree}
    (h : ∀ i : Nat, Option.Rel (fun x y => x.same y = true) xs[i]? ys[i]?) :
    sameItemsBy Scalar.same xs ys = true := by
  induction xs generalizing ys with
  | nil =>
    cases ys with
    | nil => rfl
    | cons y ys => cases h 0
  | cons x xs ih =>
    cases ys with
    | nil => cases h 0
    | cons y ys =>
      rw [sameItemsBy, Bool.and_eq_true]
      have first : Option.Rel (fun x y => x.same y = true) (some x) (some y) := h 0
      cases first with
      | some same => exact ⟨same, ih fun i => h (i + 1)⟩

/-- Containers of one kind are the same if their children are. -/
theorem same_of_children (hk : a.kind = b.kind) (hc : a.kind ≠ .scalar)
    (hn : (Keyed.keys a.entries).Nodup)
    (h : ∀ step, Option.Rel (fun x y => x.same y = true) (a.child? step) (b.child? step)) :
    a.same b = true := by
  cases a with
  | scalar value => exact absurd rfl hc
  | list xs =>
    cases b with
    | scalar other => cases hk
    | map others => cases hk
    | list ys =>
      rw [same, sameBy]
      exact sameItemsBy_of_children fun i => h (.index i)
  | map xs =>
    cases b with
    | scalar other => cases hk
    | list others => cases hk
    | map ys =>
      have lookups : ∀ name, Option.Rel (fun x y => x.same y = true) (xs.lookup name)
          (ys.lookup name) := fun name => h (.key name)
      rw [same, sameBy, Bool.and_eq_true]
      refine ⟨List.all_eq_true.mpr fun entry he => ?_, sameEntriesBy_iff.mpr fun entry he => ?_⟩
      · have there := lookups entry.1
        have held := Keyed.has_of_mem he
        rw [Keyed.has] at held ⊢
        generalize xs.lookup entry.1 = v, ys.lookup entry.1 = w at there held
        cases there with
        | none => cases held
        | some _ => rfl
      · have there := lookups entry.1
        rw [Keyed.lookup_of_mem (show (Keyed.keys xs).Nodup from hn) he] at there
        generalize ys.lookup entry.1 = w at there
        cases there with
        | some same => exact ⟨_, rfl, same⟩

/-- At every place above the end of the path both trees hold maps, or both hold lists. -/
def Abreast (path : Path) (a b : Tree) : Prop :=
  ∀ above step below, path = above ++ step :: below →
    ∃ x y, a.at? above = some x ∧ b.at? above = some y ∧ x.kind = y.kind ∧ x.kind ≠ .scalar

theorem abreast_nil : Abreast [] a b := by
  intro above step below h
  simp at h

/-- The first step leads from containers of one kind, and unless it is the last one it leads to
children that the rest of the path goes through abreast. -/
theorem abreast_cons : Abreast (step :: path) a b ↔
    a.kind = b.kind ∧ a.kind ≠ .scalar ∧
      (path = [] ∨ ∃ x y, a.child? step = some x ∧ b.child? step = some y ∧ Abreast path x y) := by
  constructor
  · intro h
    obtain ⟨x, y, hx, hy, hk⟩ := h [] step path rfl
    cases hx
    cases hy
    refine ⟨hk.1, hk.2, ?_⟩
    cases path with
    | nil => exact .inl rfl
    | cons next rest =>
      obtain ⟨x, y, hx, hy, -⟩ := h [step] next rest rfl
      rw [at?_singleton] at hx hy
      refine .inr ⟨x, y, hx, hy, fun above last below he => ?_⟩
      obtain ⟨v, w, hv, hw, kinds⟩ := h (step :: above) last below (by rw [he]; rfl)
      rw [at?_cons, hx, Option.bind_some] at hv
      rw [at?_cons, hy, Option.bind_some] at hw
      exact ⟨v, w, hv, hw, kinds⟩
  · rintro ⟨hk, hc, rest⟩ above last below he
    cases above with
    | nil => exact ⟨a, b, rfl, rfl, hk, hc⟩
    | cons first above =>
      rw [List.cons_append, List.cons.injEq] at he
      obtain ⟨rfl, he⟩ := he
      rcases rest with hn | ⟨x, y, hx, hy, deeper⟩
      · rw [hn] at he
        simp at he
      · obtain ⟨v, w, hv, hw, kinds⟩ := deeper above last below he
        refine ⟨v, w, ?_, ?_, kinds⟩
        · rw [at?_cons, hx, Option.bind_some, hv]
        · rw [at?_cons, hy, Option.bind_some, hw]

/-- A merge that goes down two trees step by step. It passes on what only one of them holds, keeps
the first where the second is of another kind, and below containers of one kind it merges child by
child. It may depend on the last key above. -/
structure Stepwise (f : Option String → Tree → Tree → Tree) : Prop where
  null_left : ∀ key b, f key .null b = b
  null_right : ∀ key a, f key a .null = a
  clash : ∀ key a b, a.kind ≠ b.kind → a ≠ .null → f key a b = a
  kind : ∀ key a b, a.kind = b.kind → a.kind ≠ .scalar → (f key a b).kind = a.kind
  child? : ∀ key a b, a.kind = b.kind → a.kind ≠ .scalar → ∀ step,
    (f key a b).child? step = Option.merge (f (step.keyBelow key)) (a.child? step) (b.child? step)

variable {f g : Option String → Tree → Tree → Tree}

/-- Merging what two trees hold under a key, or at a position, if they hold anything there. -/
theorem merge_ite (left : ∀ b, f key .null b = b) (right : ∀ a, f key a .null = a) (p q : Prop)
    [Decidable p] [Decidable q] (hx : ¬p → x = .null) (hy : ¬q → y = .null) :
    (if p ∨ q then some (f key x y) else none) =
      Option.merge (f key) (if p then some x else none) (if q then some y else none) := by
  by_cases hp : p <;> by_cases hq : q
  · simp [hp, hq]
  · simp [hp, hq, hy hq, right]
  · simp [hp, hq, hx hp, left]
  · simp [hp, hq]

theorem item_beyond {i : Nat} (h : ¬i < a.items.length) : a.item i = .null := by
  rw [item, List.getElem?_eq_none (by omega), Option.getD_none]

/-- A merge that works place by place: it passes on what only one side holds, always keeps the same
side where the two are of different kinds, and merges maps by key and lists by position. -/
structure Placewise (f : Option String → Tree → Tree → Tree) : Prop where
  null_left : ∀ key b, f key .null b = b
  null_right : ∀ key a, f key a .null = a
  clash : (∀ key a b, a.kind ≠ b.kind → a ≠ .null → b ≠ .null → f key a b = a) ∨
    ∀ key a b, a.kind ≠ b.kind → a ≠ .null → b ≠ .null → f key a b = b
  maps : ∀ key a b, a.isMap = true → b.isMap = true → (f key a b).isMap = true
  maps_has : ∀ key a b, a.isMap = true → b.isMap = true →
    ∀ name, (f key a b).has name = (a.has name || b.has name)
  maps_get : ∀ key a b, a.isMap = true → b.isMap = true →
    ∀ name, (f key a b).get name = f (some name) (a.get name) (b.get name)
  lists : ∀ key a b, a.isList = true → b.isList = true → (f key a b).isList = true
  lists_length : ∀ key a b, a.isList = true → b.isList = true →
    (f key a b).items.length = max a.items.length b.items.length
  lists_item : ∀ key a b, a.isList = true → b.isList = true →
    ∀ i, (f key a b).item i = f key (a.item i) (b.item i)

theorem Pointwise.placewise (h : Pointwise f) : Placewise f where
  null_left := h.null_left
  null_right := h.null_right
  clash := .inl fun key a b hk ha _ => h.clash key a b hk ha
  maps key a b ha _ := by rw [h.isMap key (ne_null_of_isMap ha), ha]
  maps_has key a b ha hb := h.maps_has key ha hb
  maps_get := h.maps_get
  lists key a b ha _ := by rw [h.isList key (ne_null_of_isList ha), ha]
  lists_length key a b ha hb := h.lists_length key ha hb
  lists_item key a b ha hb := h.lists_item key ha hb

/-- The same merge with its sides exchanged. -/
theorem Placewise.flip (h : Placewise f) : Placewise fun key a b => f key b a where
  null_left := h.null_right
  null_right := h.null_left
  clash := h.clash.symm.imp (fun second key a b hk ha hb => second key b a (Ne.symm hk) hb ha)
    fun first key a b hk ha hb => first key b a (Ne.symm hk) hb ha
  maps key a b ha hb := h.maps key b a hb ha
  maps_has key a b ha hb name := by rw [h.maps_has key b a hb ha, Bool.or_comm]
  maps_get key a b ha hb := h.maps_get key b a hb ha
  lists key a b ha hb := h.lists key b a hb ha
  lists_length key a b ha hb := by rw [h.lists_length key b a hb ha, Nat.max_comm]
  lists_item key a b ha hb := h.lists_item key b a hb ha

/-- A merge that works place by place and keeps the first side where the second is of another kind
goes down step by step. -/
theorem Placewise.stepwise (h : Placewise f)
    (clash : ∀ key a b, a.kind ≠ b.kind → a ≠ .null → f key a b = a) : Stepwise f where
  null_left := h.null_left
  null_right := h.null_right
  clash := clash
  kind key a b hk hc := by
    cases a with
    | scalar value => exact absurd rfl hc
    | map cs => exact isMap_iff_kind.mp (h.maps key _ b rfl (isMap_iff_kind.mpr hk.symm))
    | list xs => exact isList_iff_kind.mp (h.lists key _ b rfl (isList_iff_kind.mpr hk.symm))
  child? key a b hk hc step := by
    cases a with
    | scalar value => exact absurd rfl hc
    | map cs =>
      obtain ⟨ss, rfl⟩ := isMap_iff.mp (isMap_iff_kind.mpr hk.symm)
      obtain ⟨entries, he⟩ := isMap_iff.mp (h.maps key (.map cs) (.map ss) rfl rfl)
      cases step with
      | index i =>
        rw [he]
        rfl
      | key name =>
        rw [child?_key, child?_key, child?_key, h.maps_get key _ _ rfl rfl,
          h.maps_has key _ _ rfl rfl]
        simp only [Bool.or_eq_true]
        exact merge_ite (h.null_left _) (h.null_right _) _ _
          (fun hn => get_of_not_has (by simpa using hn))
          fun hn => get_of_not_has (by simpa using hn)
    | list xs =>
      obtain ⟨ys, rfl⟩ := isList_iff.mp (isList_iff_kind.mpr hk.symm)
      obtain ⟨items, he⟩ := isList_iff.mp (h.lists key (.list xs) (.list ys) rfl rfl)
      cases step with
      | key name =>
        rw [he]
        rfl
      | index i =>
        rw [child?_index, child?_index, child?_index, h.lists_item key _ _ rfl rfl,
          h.lists_length key _ _ rfl rfl]
        have within : ∀ m n, i < max m n ↔ i < m ∨ i < n := by omega
        simp only [within]
        exact merge_ite (h.null_left _) (h.null_right _) _ _ item_beyond item_beyond

theorem Pointwise.stepwise (h : Pointwise f) : Stepwise f :=
  h.placewise.stepwise h.clash

/-- What a merge holds at a place. What is missing or null on one side gives way to the other side,
and the first side stays where the second is of another kind. Two scalars become one that is the
same as the pick of both. Two maps become a map with the keys of both, and two lists a list as long
as the longer one. -/
inductive MergedAt (pick : Scalar → Scalar → Scalar) :
    Option Tree → Option Tree → Option Tree → Prop where
  | first_missing (second : Option Tree) : MergedAt pick none second second
  | second_missing (first : Option Tree) : MergedAt pick first none first
  | first_null (second : Tree) : MergedAt pick (some .null) (some second) (some second)
  | second_null (first : Tree) : MergedAt pick (some first) (some .null) (some first)
  | clash {a b : Tree} (first_filled : a ≠ .null) (second_filled : b ≠ .null)
      (kinds : a.kind ≠ b.kind) : MergedAt pick (some a) (some b) (some a)
  | scalars {a b value : Scalar} (first_filled : a ≠ .null) (second_filled : b ≠ .null)
      (same : value.same (pick a b) = true) :
      MergedAt pick (some (.scalar a)) (some (.scalar b)) (some (.scalar value))
  | maps {cs ss entries : Entries}
      (keys : ∀ name, name ∈ Keyed.keys entries ↔ name ∈ Keyed.keys cs ∨ name ∈ Keyed.keys ss) :
      MergedAt pick (some (.map cs)) (some (.map ss)) (some (.map entries))
  | lists {xs ys items : List Tree} (length : items.length = max xs.length ys.length) :
      MergedAt pick (some (.list xs)) (some (.list ys)) (some (.list items))

theorem mem_keys_iff {entries : Entries} {name : String} :
    name ∈ Keyed.keys entries ↔ ((Tree.map entries).child? (.key name)).isSome = true := by
  rw [← Keyed.has_iff_mem_keys]
  rfl

theorem lt_length_iff {items : List Tree} {i : Nat} :
    i < items.length ↔ ((Tree.list items).child? (.index i)).isSome = true := by
  rw [child?, isSome_getElem?]

/-- What two scalars become under a key, up to how a number is spelled. -/
def Picks (f : Option String → Tree → Tree → Tree)
    (pick : Option String → Scalar → Scalar → Scalar) : Prop :=
  ∀ key a b, a ≠ .null → b ≠ .null → a.isComparable = true → b.isComparable = true →
    ∃ value, f key (.scalar a) (.scalar b) = .scalar value ∧ value.same (pick key a b) = true

/-- A merge that picks one of two scalars unless they are the same picks one up to how it is
spelled, for where they are the same either of them will do. -/
theorem Pointwise.picks (h : Pointwise f) {pick : Option String → Scalar → Scalar → Scalar}
    (either : ∀ key s t, pick key s t = s ∨ pick key s t = t)
    (scalars : ∀ key s t, (Tree.scalar s).same (.scalar t) = false → s ≠ .null → t ≠ .null →
      f key (.scalar s) (.scalar t) = .scalar (pick key s t)) : Picks f pick := by
  intro key s t hs ht cs ct
  by_cases same : s.same t = true
  · have alike : ∀ v, v = s ∨ v = t → v.same (pick key s t) = true := by
      rintro v (rfl | rfl) <;> rcases either key _ _ with he | he <;> rw [he]
      · exact Scalar.same_self cs
      · exact same
      · rw [Scalar.same_comm]
        exact same
      · exact Scalar.same_self ct
    rcases h.same_eq key (show (Tree.scalar s).same (.scalar t) = true from same) with he | he
    · exact ⟨s, he, alike s (.inl rfl)⟩
    · exact ⟨t, he, alike t (.inr rfl)⟩
  · have differ : (Tree.scalar s).same (.scalar t) = false := by
      rw [Bool.not_eq_true] at same
      exact same
    refine ⟨_, scalars key s t differ hs ht, Scalar.same_self ?_⟩
    rcases either key s t with he | he
    · rwa [he]
    · rwa [he]

namespace Stepwise

variable (h : Stepwise f) {pick : Option String → Scalar → Scalar → Scalar}

include h

theorem isSome_child? (key : Option String) (hk : a.kind = b.kind) (hc : a.kind ≠ .scalar)
    (step : Step) :
    ((f key a b).child? step).isSome = true ↔
      (a.child? step).isSome = true ∨ (b.child? step).isSome = true := by
  rw [h.child? key a b hk hc]
  cases a.child? step <;> cases b.child? step <;> simp

theorem mergedAt_root (hp : Picks f pick) (ha : a.regular Scalar.isComparable = true)
    (hb : b.regular Scalar.isComparable = true) :
    MergedAt (pick key) (some a) (some b) (some (f key a b)) := by
  cases meeting a b with
  | null_left =>
    rw [h.null_left]
    exact .first_null b
  | null_right =>
    rw [h.null_right]
    exact .second_null a
  | clash hn hm hk =>
    rw [h.clash key a b hk hn]
    exact .clash hn hm hk
  | scalars s t hs ht =>
    obtain ⟨value, he, same⟩ := hp key s t hs ht ha hb
    rw [he]
    exact .scalars hs ht same
  | containers hk hc =>
    have children := h.isSome_child? key hk hc
    have kind := h.kind key a b hk hc
    cases a with
    | scalar s => exact absurd rfl hc
    | map cs =>
      obtain ⟨ss, rfl⟩ := isMap_iff.mp (isMap_iff_kind.mpr hk.symm)
      obtain ⟨entries, he⟩ := isMap_iff.mp (isMap_iff_kind.mpr kind)
      rw [he] at children ⊢
      exact .maps fun name => by
        rw [mem_keys_iff, mem_keys_iff, mem_keys_iff]
        exact children (.key name)
    | list xs =>
      obtain ⟨ys, rfl⟩ := isList_iff.mp (isList_iff_kind.mpr hk.symm)
      obtain ⟨items, he⟩ := isList_iff.mp (isList_iff_kind.mpr kind)
      rw [he] at children ⊢
      have within : ∀ i, i < items.length ↔ i < xs.length ∨ i < ys.length := fun i => by
        rw [lt_length_iff, lt_length_iff, lt_length_iff]
        exact children (.index i)
      have upper := within (max xs.length ys.length)
      have lower := within items.length
      exact .lists (by omega)

/-- At a place that a path leads to abreast a merge holds the merge of what the two trees hold
there, by induction on the path. -/
theorem at?_abreast (key : Option String) (hm : Abreast path a b) :
    (f key a b).at? path =
      Option.merge (f (path.lastKeyFrom key)) (a.at? path) (b.at? path) := by
  induction path generalizing a b key with
  | nil => rfl
  | cons step path ih =>
    obtain ⟨hk, hc, rest⟩ := abreast_cons.mp hm
    rw [at?_cons, at?_cons, at?_cons, h.child? key a b hk hc]
    cases hx : a.child? step with
    | none => simp
    | some x =>
      cases hy : b.child? step with
      | none => simp
      | some y =>
        have deeper : Abreast path x y := by
          rcases rest with rfl | ⟨v, w, hv, hw, deeper⟩
          · exact abreast_nil
          · rw [hx] at hv
            rw [hy] at hw
            cases hv
            cases hw
            exact deeper
        exact ih _ deeper

/-- What a merge holds at every place that a path leads to abreast. -/
theorem mergedAt (hp : Picks f pick) (key : Option String)
    (ha : a.regular Scalar.isComparable = true) (hb : b.regular Scalar.isComparable = true)
    (hm : Abreast path a b) :
    MergedAt (pick (path.lastKeyFrom key)) (a.at? path) (b.at? path) ((f key a b).at? path) := by
  rw [h.at?_abreast key hm]
  cases hx : a.at? path with
  | none =>
    rw [Option.merge_none_left]
    exact .first_missing _
  | some x =>
    cases hy : b.at? path with
    | none => exact .second_missing _
    | some y => exact h.mergedAt_root hp (regular_at? ha hx) (regular_at? hb hy)

/-- At a place of the first tree a merge holds what it makes of the value there and of some other
one. -/
theorem at?_of_first (key : Option String) (hx : a.at? path = some x) (b : Tree) :
    ∃ y, (f key a b).at? path = some (f (path.lastKeyFrom key) x y) := by
  induction path generalizing a b key with
  | nil =>
    cases hx
    exact ⟨b, rfl⟩
  | cons step path ih =>
    rw [at?_cons] at hx
    obtain ⟨child, hc, hx⟩ := Option.bind_eq_some_iff.mp hx
    by_cases hk : a.kind = b.kind
    · obtain ⟨y, hy⟩ := ih (step.keyBelow key) hx ((b.child? step).getD .null)
      refine ⟨y, ?_⟩
      rw [at?_cons, h.child? key a b hk (kind_of_child hc), hc]
      cases hb : b.child? step with
      | none =>
        rw [hb, Option.getD_none, h.null_right] at hy
        exact hy
      | some other =>
        rw [hb] at hy
        exact hy
    · refine ⟨.null, ?_⟩
      rw [h.clash key a b hk (ne_null_of_kind (kind_of_child hc)), at?_cons, hc, Option.bind_some,
        hx, h.null_right]

/-- No path of the first tree is lost. -/
theorem isSome_at? (key : Option String) (hx : (a.at? path).isSome = true) (b : Tree) :
    ((f key a b).at? path).isSome = true := by
  obtain ⟨x, hx⟩ := Option.isSome_iff_exists.mp hx
  obtain ⟨y, hy⟩ := h.at?_of_first key hx b
  rw [hy]
  rfl

/-- Two merges that go down step by step give the same if they do so of any two scalars. -/
theorem same (hg : Stepwise g)
    (scalars : ∀ key a b, a ≠ .null → b ≠ .null → a.isComparable = true → b.isComparable = true →
      (f key (.scalar a) (.scalar b)).same (g key (.scalar a) (.scalar b)) = true)
    (regular : ∀ key a b, a.regular Scalar.isComparable = true →
      b.regular Scalar.isComparable = true → (f key a b).regular Scalar.isComparable = true)
    (ha : a.regular Scalar.isComparable = true) (hb : b.regular Scalar.isComparable = true) :
    (f key a b).same (g key a b) = true := by
  induction a using induct_children generalizing b key with
  | h a ih =>
    cases meeting a b with
    | null_left =>
      rw [h.null_left, hg.null_left]
      exact same_self hb
    | null_right =>
      rw [h.null_right, hg.null_right]
      exact same_self ha
    | clash hn _ hk =>
      rw [h.clash key a b hk hn, hg.clash key a b hk hn]
      exact same_self ha
    | scalars s t hs ht => exact scalars key s t hs ht ha hb
    | containers hk hc =>
      refine same_of_children ?_ ?_ (nodup_entries (regular key a b ha hb)) fun step => ?_
      · rw [h.kind key a b hk hc, hg.kind key a b hk hc]
      · rw [h.kind key a b hk hc]
        exact hc
      · rw [h.child? key a b hk hc, hg.child? key a b hk hc]
        cases hx : a.child? step with
        | none =>
          cases hy : b.child? step with
          | none => exact .none
          | some y => exact .some (same_self (regular_child hb hy))
        | some x =>
          have left := regular_child ha hx
          cases hy : b.child? step with
          | none => exact .some (same_self left)
          | some y => exact .some (ih step x hx left (regular_child hb hy))

end Stepwise

end Tree

namespace Sample

/-- Fields as they stand. -/
def present : Tree :=
  .map [("replicas", .int 2), ("cpu", .list [.text "500m", .null]), ("image", .text "a"),
    ("limits", .map [("ports", .list [])]), ("kept", .bool true)]

/-- The float 2.0, which is the same as the integer 2. -/
def two : Tree :=
  .scalar (.float (.finite false 1 1 (.inl rfl)))

/-- Fields as they are requested: 2.0 replicas, a longer list for `cpu` with an item in the
place of nothing, a text where there is a list, and nothing for a new key. -/
def requested : Tree :=
  .map [("cpu", .list [.text "2", .int 1, .text "1"]),
    ("replicas", two),
    ("limits", .map [("ports", .text "all")]),
    ("image", .text "b"), ("extra", .null)]

theorem abreast_items : Tree.Abreast [.key "cpu", .index 0] present requested := by
  refine Tree.abreast_cons.mpr ⟨rfl, by decide, .inr ⟨_, _, rfl, rfl, ?_⟩⟩
  exact Tree.abreast_cons.mpr ⟨rfl, by decide, .inl rfl⟩

end Sample

end TenantSizing
