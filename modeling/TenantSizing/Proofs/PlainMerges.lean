import TenantSizing.Proofs.Clashes

namespace TenantSizing

namespace Tree

variable {policy : MergePolicy} {key : Option String} {a b : Tree} {path : Path}

mutual

/-- The merge of a request without a short cut. -/
def plainMerge (policy : MergePolicy) (key : Option String) : Tree → Tree → Tree
  | current, .scalar .null => current
  | .scalar .null, request => request
  | .map cs, .map rs => .map (plainMergeEntries policy cs rs ++ Keyed.without rs cs)
  | .list xs, .list ys => .list (plainMergeItems policy key xs ys)
  | .scalar a, .scalar b => .scalar (policy.resolve key a b)
  | current, _ => current

def plainMergeItems (policy : MergePolicy) (key : Option String) :
    List Tree → List Tree → List Tree
  | [], ys => ys
  | xs, [] => xs
  | x :: xs, y :: ys => plainMerge policy key x y :: plainMergeItems policy key xs ys

def plainMergeEntries (policy : MergePolicy) : Entries → Entries → Entries
  | [], _ => []
  | (key, c) :: cs, rs =>
    (key, plainMerge policy (some key) c ((rs.lookup key).getD .null)) ::
      plainMergeEntries policy cs rs

end

mutual

/-- What the plain merge reports. -/
def plainClashes (path : Path) : Tree → Tree → List Clash
  | _, .scalar .null => []
  | .scalar .null, _ => []
  | .map cs, .map rs => plainEntriesClashes path cs rs
  | .list xs, .list ys => plainItemsClashes path 0 xs ys
  | .scalar _, .scalar _ => []
  | current, request => [⟨path, current.kind, request.kind⟩]

def plainItemsClashes (path : Path) (position : Nat) : List Tree → List Tree → List Clash
  | x :: xs, y :: ys =>
    plainClashes (path ++ [.index position]) x y ++ plainItemsClashes path (position + 1) xs ys
  | _, _ => []

def plainEntriesClashes (path : Path) : Entries → Entries → List Clash
  | [], _ => []
  | (key, c) :: cs, rs =>
    plainClashes (path ++ [.key key]) c ((rs.lookup key).getD .null) ++
      plainEntriesClashes path cs rs

end

theorem plainMergeEntries_eq_map (cs rs : Entries) :
    plainMergeEntries policy cs rs = cs.map fun entry =>
      (entry.1, plainMerge policy (some entry.1) entry.2 ((rs.lookup entry.1).getD .null)) := by
  induction cs with
  | nil => rfl
  | cons entry rest ih => rw [plainMergeEntries, ih, List.map_cons]

theorem plainMergeItems_eq_align (xs ys : List Tree) :
    plainMergeItems policy key xs ys = align (plainMerge policy key) xs ys := by
  induction xs generalizing ys with
  | nil => cases ys <;> rfl
  | cons x xs ih =>
    cases ys with
    | nil => rfl
    | cons y ys => rw [plainMergeItems, align, ih]

@[simp] theorem plainMerge_null (current : Tree) :
    current.plainMerge policy key .null = current := by
  unfold plainMerge
  rfl

@[simp] theorem null_plainMerge (request : Tree) :
    Tree.null.plainMerge policy key request = request := by
  cases request with
  | scalar value => cases value <;> rfl
  | list items => rfl
  | map entries => rfl

theorem plainMerge_scalars {s t : Scalar} (hs : s ≠ .null) (ht : t ≠ .null) :
    (Tree.scalar s).plainMerge policy key (.scalar t) = .scalar (policy.resolve key s t) := by
  cases t <;> cases s <;> first | rfl | contradiction

theorem plainMerge_clash (hk : a.kind ≠ b.kind) (ha : a ≠ .null) :
    a.plainMerge policy key b = a := by
  unfold plainMerge
  split
  case h_2 => exact absurd rfl ha
  case h_3 | h_4 | h_5 => exact absurd rfl hk
  all_goals rfl

theorem getElem?_align {f : Tree → Tree → Tree} (xs ys : List Tree) (i : Nat) :
    (align f xs ys)[i]? = Option.merge f xs[i]? ys[i]? := by
  induction xs generalizing ys i with
  | nil => cases h : ys[i]? <;> simp [align, h]
  | cons x xs ih =>
    cases ys with
    | nil =>  cases h : (x :: xs)[i]? <;> simp [align, h]
    | cons y ys =>
      cases i with
      | zero => rfl
      | succ i => exact ih ys i

theorem stepwise_plainMerge (policy : MergePolicy) : Stepwise (plainMerge policy) where
  null_left _ := null_plainMerge
  null_right _ := plainMerge_null
  clash _ _ _ := plainMerge_clash
  kind key a b hk hc := by
    cases a with
    | scalar s => exact absurd rfl hc
    | map cs =>
      obtain ⟨rs, rfl⟩ := isMap_iff.mp (isMap_iff_kind.mpr hk.symm)
      rfl
    | list xs =>
      obtain ⟨ys, rfl⟩ := isList_iff.mp (isList_iff_kind.mpr hk.symm)
      rfl
  child? key a b hk hc step := by
    cases a with
    | scalar s => exact absurd rfl hc
    | map cs =>
      obtain ⟨rs, rfl⟩ := isMap_iff.mp (isMap_iff_kind.mpr hk.symm)
      cases step with
      | index i => rfl
      | key name =>
        show (plainMergeEntries policy cs rs ++ Keyed.without rs cs).lookup name =
          Option.merge (plainMerge policy (some name)) (cs.lookup name) (rs.lookup name)
        rw [plainMergeEntries_eq_map, Keyed.lookup_append,
          Keyed.lookup_map cs fun k v => plainMerge policy (some k) v ((rs.lookup k).getD .null),
          Keyed.lookup_without, Keyed.has]
        cases cs.lookup name <;> cases rs.lookup name <;> simp
    | list xs =>
      obtain ⟨ys, rfl⟩ := isList_iff.mp (isList_iff_kind.mpr hk.symm)
      cases step with
      | key name => rfl
      | index i =>
        show (plainMergeItems policy key xs ys)[i]? = _
        rw [plainMergeItems_eq_align]
        exact getElem?_align xs ys i

/-- What a merge makes of two scalars is the same as what the policy resolves them to. -/
theorem picks_merge (policy : MergePolicy) : Picks (merge policy) policy.resolve :=
  (pointwise_merge policy).picks (resolve_eq policy) fun _ _ _ => merge_scalars

theorem merge_same_plainMerge (ha : a.regular Scalar.isComparable = true)
    (hb : b.regular Scalar.isComparable = true) :
    (a.merge policy key b).same (a.plainMerge policy key b) = true := by
  refine (pointwise_merge policy).stepwise.same (stepwise_plainMerge policy) ?_ ?_ ha hb
  · intro key s t hs ht cs ct
    obtain ⟨value, he, same⟩ := picks_merge policy key s t hs ht cs ct
    rw [he, plainMerge_scalars hs ht]
    exact same
  · exact fun key a b ha hb => (blend_merge a b).regular ha hb rfl

theorem plainEntriesClashes_eq (cs rs : Entries) :
    plainEntriesClashes path cs rs = cs.flatMap fun entry =>
      plainClashes (path ++ [.key entry.1]) entry.2 ((rs.lookup entry.1).getD .null) := by
  induction cs with
  | nil => rfl
  | cons entry rest ih => rw [plainEntriesClashes, ih, List.flatMap_cons]

theorem plainItemsClashes_eq (xs ys : List Tree) :
    plainItemsClashes path 0 xs ys =
      (List.range (min xs.length ys.length)).flatMap fun i =>
        plainClashes (path ++ [.index i]) (xs[i]?.getD .null) (ys[i]?.getD .null) := by
  have loop := itemsClashes_eq path plainClashes (plainItemsClashes path)
    (fun _ _ => rfl) (fun _ xs => by cases xs <;> rfl) (fun _ _ _ _ _ => rfl) 0 xs ys
  simpa only [Nat.zero_add] using loop

theorem plainClashes_null (path : Path) (current : Tree) :
    plainClashes path current .null = [] := by
  unfold plainClashes
  rfl

theorem null_plainClashes (path : Path) (request : Tree) :
    plainClashes path .null request = [] := by
  cases request with
  | scalar value => cases value <;> rfl
  | list items => rfl
  | map entries => rfl

theorem plainClashes_scalars (path : Path) (s t : Scalar) :
    plainClashes path (.scalar s) (.scalar t) = [] := by
  cases t <;> cases s <;> rfl

theorem plainClashes_clash (path : Path) (hk : a.kind ≠ b.kind) (ha : a ≠ .null) (hb : b ≠ .null) :
    plainClashes path a b = [⟨path, a.kind, b.kind⟩] := by
  unfold plainClashes
  split
  case h_1 => exact absurd rfl hb
  case h_2 => exact absurd rfl ha
  case h_3 | h_4 | h_5 => exact absurd rfl hk
  case h_6 => rfl

theorem mergeClashes_eq_of_not_containers (path : Path) (h : a.kind = b.kind → a.kind = .scalar) :
    mergeClashes path a b = plainClashes path a b := by
  have reports := reporting_mergeClashes
  cases meeting a b with
  | null_left => rw [reports.null_left, null_plainClashes]
  | null_right => rw [reports.null_right, plainClashes_null]
  | scalars s t => rw [reports.scalars, plainClashes_scalars]
  | clash ha hb hk => rw [reports.clash path a b ha hb hk, plainClashes_clash path hk ha hb]
  | containers hk hc => exact absurd (h hk) hc

/-- The short cut hides no report, by induction on the current tree: where it is taken, nothing is
reported of any child, for the children are the same. -/
theorem mergeClashes_eq_plainClashes (path : Path) (a b : Tree) :
    mergeClashes path a b = plainClashes path a b := by
  induction a generalizing path b with
  | scalar s => exact mergeClashes_eq_of_not_containers path fun _ => rfl
  | list xs ih =>
    by_cases hk : (Tree.list xs).kind = b.kind
    · obtain ⟨ys, rfl⟩ := isList_iff.mp (isList_iff_kind.mpr hk.symm)
      have plain : plainClashes path (.list xs) (.list ys) = mergeItemsClashes path 0 xs ys := by
        show plainItemsClashes path 0 xs ys = _
        rw [plainItemsClashes_eq, mergeItemsClashes_eq]
        refine List.flatMap_congr fun i hi => ?_
        have within : i < xs.length := by
          have := List.mem_range.mp hi
          omega
        rw [List.getElem?_eq_getElem within, Option.getD_some, ih _ (List.getElem_mem within)]
      rw [plain]
      by_cases hs : (Tree.list xs).same (.list ys) = true
      · rw [mergeClashes_of_same hs, mergeItemsClashes_eq]
        refine (List.flatMap_eq_nil_iff.mpr fun i _ => ?_).symm
        exact mergeClashes_of_same ((same_items hs).2 i)
      · exact mergeClashes_lists (by simpa using hs)
    · exact mergeClashes_eq_of_not_containers path fun he => absurd he hk
  | map cs ih =>
    by_cases hk : (Tree.map cs).kind = b.kind
    · obtain ⟨rs, rfl⟩ := isMap_iff.mp (isMap_iff_kind.mpr hk.symm)
      have plain : plainClashes path (.map cs) (.map rs) = mergeEntriesClashes path cs rs := by
        show plainEntriesClashes path cs rs = _
        rw [plainEntriesClashes_eq, mergeEntriesClashes_eq]
        exact List.flatMap_congr fun entry he => (ih entry he _ _).symm
      rw [plain]
      by_cases hs : (Tree.map cs).same (.map rs) = true
      · rw [mergeClashes_of_same hs, mergeEntriesClashes_eq]
        refine (List.flatMap_eq_nil_iff.mpr fun entry he => ?_).symm
        rw [same, sameBy, Bool.and_eq_true] at hs
        obtain ⟨value, hl, there⟩ := sameEntriesBy_iff.mp hs.2 entry he
        rw [hl]
        exact mergeClashes_of_same there
      · exact mergeClashes_maps (by simpa using hs)
    · exact mergeClashes_eq_of_not_containers path fun he => absurd he hk

end Tree

open TenantSizing.Tree

/-- What a merge of a request without an allow-list holds and reports, place by place: the policy
resolves two scalars by the last key above them. The merge is the same as the plain one. -/
theorem requests_merge_place_by_place (policy : MergePolicy) (rules : Tree) {current request : Tree}
    (hc : current.regular Scalar.isComparable = true)
    (hr : request.regular Scalar.isComparable = true) :
    let merged := current.filteredMerge policy rules.entries true request
    let clashes := current.filteredMergeClashes rules.entries true request
    (∀ path, Abreast path current request →
      MergedAt (fun held asked =>
          if policy.directAssign then asked
          else if path.lastKey.any policy.comparable.contains then held.larger asked
          else held)
        (current.at? path) (request.at? path) (merged.at? path)) ∧
      merged.regular Scalar.isComparable = true ∧
      WarnsOfClashes (clashes.map .clash) current request ∧
      merged.same (current.plainMerge policy none request) = true ∧
      clashes = plainClashes [] current request := by
  intro merged clashes
  refine ⟨fun path abreast => ?_, (blend_merge current request).regular hc hr rfl,
    reporting_mergeClashes.warns rfl hc hr, merge_same_plainMerge hc hr,
    mergeClashes_eq_plainClashes [] current request⟩
  exact (pointwise_merge policy).stepwise.mergedAt (picks_merge policy) none hc hr abreast

theorem requests_merge_place_by_place_mixed :
    MergedAt Scalar.larger (some (.text "500m")) (some (.text "2"))
        ((Sample.present.filteredMerge ⟨false, ["cpu"]⟩ [] true Sample.requested).at?
          [.key "cpu", .index 0]) ∧
      WarnsOfClashes [.clash ⟨[.key "limits", .key "ports"], .list, .scalar⟩] Sample.present
        Sample.requested := by
  obtain ⟨places, -, warns, -, -⟩ := requests_merge_place_by_place ⟨false, ["cpu"]⟩ .null
    (show Sample.present.regular Scalar.isComparable = true by decide)
    (show Sample.requested.regular Scalar.isComparable = true by decide)
  have clashes : Sample.present.filteredMergeClashes Tree.null.entries true Sample.requested =
      [⟨[.key "limits", .key "ports"], .list, .scalar⟩] := by decide +kernel
  rw [clashes] at warns
  exact ⟨places _ Sample.abreast_items, warns⟩

end TenantSizing
