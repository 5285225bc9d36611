import TenantSizing.Proofs.Places
import TenantSizing.Proofs.Reordering

namespace TenantSizing

namespace Keyed

variable {α : Type}

theorem without_again (entries others : Keyed α) :
    without (without entries others) others = without entries others := by
  rw [without, without, List.filter_filter]
  simp only [Bool.and_self]

end Keyed

namespace Tree

variable {policy : MergePolicy} {key : Option String} {pass : Scalar → Bool} {rules : Entries}
  {keys : List String}

theorem align_self {f : Tree → Tree → Tree} {xs : List Tree} (h : ∀ x ∈ xs, f x x = x) :
    align f xs xs = xs := by
  induction xs with
  | nil => rfl
  | cons x xs ih =>
    rw [align, h x (by simp), ih fun y hy => h y (by simp [hy])]

theorem align_absorb {f : Tree → Tree → Tree} {xs : List Tree} (self : ∀ x ∈ xs, f x x = x)
    (absorb : ∀ x ∈ xs, ∀ y, f x (f x y) = f x y) (ys : List Tree) :
    align f xs (align f xs ys) = align f xs ys := by
  induction xs generalizing ys with
  | nil => rfl
  | cons x xs ih =>
    cases ys with
    | nil => exact align_self self
    | cons y ys =>
      rw [align, align, absorb x (by simp), ih (fun z hz => self z (by simp [hz]))
        fun z hz => absorb z (by simp [hz])]

theorem merge_self {tree : Tree} (h : tree.regular pass = true) :
    tree.merge policy key tree = tree := by
  induction tree generalizing key with
  | scalar value => exact merge_self_scalar value
  | list items ih =>
    have hi := regular_list.mp h
    by_cases hs : (Tree.list items).same (.list items) = true
    · exact merge_of_same hs
    · rw [merge_lists (by simpa using hs), mergeItems_eq_align,
        align_self fun item hm => ih item hm (hi item hm)]
  | map entries ih =>
    obtain ⟨hn, hv⟩ := regular_map.mp h
    by_cases hs : (Tree.map entries).same (.map entries) = true
    · exact merge_of_same hs
    · have values : mergeEntries policy entries entries = entries := by
        rw [mergeEntries_eq_map]
        calc entries.map (fun entry => (entry.1,
              merge policy (some entry.1) entry.2 ((entries.lookup entry.1).getD .null)))
            = entries.map id := List.map_congr_left fun entry he => by
              rw [Keyed.lookup_of_mem hn he, Option.getD_some, ih entry he (hv entry he)]
              rfl
          _ = entries := List.map_id entries
      rw [merge_maps (by simpa using hs), values,
        Keyed.without_eq_nil fun entry he => Keyed.has_of_mem he, List.append_nil]

/-- Two maps united: what the first one holds, merged with what the second one holds under the same
key, and behind it what only the second one holds. -/
def unite (f : String → Tree → Tree → Tree) (cs rs : Entries) : Entries :=
  cs.map (fun entry => (entry.1, f entry.1 entry.2 ((rs.lookup entry.1).getD .null))) ++
    Keyed.without rs cs

/-- Where values absorb what they have been merged to, so do maps. -/
theorem unite_absorb {f : String → Tree → Tree → Tree} (rs : Entries) {cs : Entries}
    (hn : (Keyed.keys cs).Nodup)
    (absorb : ∀ entry ∈ cs, ∀ other,
      f entry.1 entry.2 (f entry.1 entry.2 other) = f entry.1 entry.2 other) :
    unite f cs (unite f cs rs) = unite f cs rs := by
  have values : cs.map (fun entry =>
        (entry.1, f entry.1 entry.2 (((unite f cs rs).lookup entry.1).getD .null))) =
      cs.map fun entry => (entry.1, f entry.1 entry.2 ((rs.lookup entry.1).getD .null)) := by
    refine List.map_congr_left fun entry he => ?_
    rw [unite, Keyed.lookup_append,
      Keyed.lookup_map cs fun k v => f k v ((rs.lookup k).getD .null), Keyed.lookup_of_mem hn he,
      Option.map_some, Option.some_or, Option.getD_some, absorb entry he]
  have rest : Keyed.without (unite f cs rs) cs = Keyed.without rs cs := by
    have none : Keyed.without (cs.map fun entry =>
        (entry.1, f entry.1 entry.2 ((rs.lookup entry.1).getD .null))) cs = [] := by
      refine Keyed.without_eq_nil fun entry he => ?_
      obtain ⟨before, hb, rfl⟩ := List.mem_map.mp he
      show Keyed.has cs before.1 = true
      exact Keyed.has_of_mem hb
    rw [Keyed.without] at none ⊢
    rw [unite, List.filter_append, none, List.nil_append]
    exact Keyed.without_again rs cs
  rw [unite, values, rest, unite]

/-- Merging into a tree what it has merged to gives just that, by induction on the tree. -/
theorem merge_absorb {current : Tree} (h : current.regular pass = true) (request : Tree) :
    current.merge policy key (current.merge policy key request) =
      current.merge policy key request := by
  induction current generalizing key request with
  | scalar s =>
    cases meeting (.scalar s) request with
    | null_left => rw [null_merge, null_merge]
    | null_right => rw [merge_null, merge_self_scalar]
    | clash hn _ hk => rw [merge_clash hk hn, merge_self_scalar]
    | containers _ hc => exact absurd rfl hc
    | scalars _ t hs ht =>
      by_cases same : (Tree.scalar s).same (.scalar t) = true
      · rw [merge_of_same same, merge_of_same same]
      · have merged : (Tree.scalar s).merge policy key (.scalar t) =
            .scalar (policy.resolve key s t) := merge_scalars (by simpa using same) hs ht
        rcases resolve_eq policy key s t with hr | hr
        · rw [hr] at merged
          rw [merged, merge_self_scalar]
        · rw [hr] at merged
          rw [merged, merged]
  | list xs ih =>
    have regular := regular_list.mp h
    by_cases hk : (Tree.list xs).kind = request.kind
    · obtain ⟨ys, rfl⟩ := isList_iff.mp (isList_iff_kind.mpr hk.symm)
      by_cases same : (Tree.list xs).same (.list ys) = true
      · rw [merge_of_same same, merge_of_same same]
      rw [merge_lists (by simpa using same), mergeItems_eq_align]
      -- The second merge can take the short cut of equal trees where the first did not.
      by_cases again : (Tree.list xs).same (.list (align (merge policy key) xs ys)) = true
      · exact merge_of_same again
      · rw [merge_lists (by simpa using again), mergeItems_eq_align,
          align_absorb (fun x hx => merge_self (regular x hx)) fun x hx => ih x hx (regular x hx)]
    · rw [merge_clash hk nofun, merge_self h]
  | map cs ih =>
    obtain ⟨hn, regular⟩ := regular_map.mp h
    by_cases hk : (Tree.map cs).kind = request.kind
    · obtain ⟨rs, rfl⟩ := isMap_iff.mp (isMap_iff_kind.mpr hk.symm)
      by_cases same : (Tree.map cs).same (.map rs) = true
      · rw [merge_of_same same, merge_of_same same]
      have united : ∀ rs, (Tree.map cs).same (.map rs) = false →
          (Tree.map cs).merge policy key (.map rs) =
            .map (unite (fun name c r => merge policy (some name) c r) cs rs) := fun rs differ => by
        rw [merge_maps differ, mergeEntries_eq_map, unite]
      rw [united rs (by simpa using same)]
      by_cases again : (Tree.map cs).same
          (.map (unite (fun name c r => merge policy (some name) c r) cs rs)) = true
      · exact merge_of_same again
      · rw [united _ (by simpa using again),
          unite_absorb rs hn fun entry he => ih entry he (regular entry he)]
    · rw [merge_clash hk nofun, merge_self h]

theorem same_merge_again {current request : Tree} (hc : current.regular Scalar.isComparable = true)
    (hr : request.regular Scalar.isComparable = true) :
    ((current.merge policy key request).merge policy key request).same
      (current.merge policy key request) = true := by
  have merged : (current.merge policy key request).regular Scalar.isComparable = true :=
    (blend_merge current request).regular hc hr rfl
  exact (alike_merge_again current request).symm.same ((blend_merge _ _).regular merged hr rfl)
    merged

/-- A filtered merge keeps to an allowance that both sides keep to once they are pruned. -/
theorem conforms_filteredMerge {allow : String → Tree → Bool → Bool}
    {current request : Tree} (hc : Conforms allow rules (current.prune rules))
    (hr : Conforms allow rules (request.prune rules)) :
    Conforms allow rules (current.filteredMerge policy rules false request) :=
  (blend_merge (current.prune rules) (request.prune rules)).conforms hc hr

theorem prune_filteredMerge (current request : Tree) :
    (current.filteredMerge policy rules false request).prune rules =
      current.filteredMerge policy rules false request :=
  prune_of_conforms (conforms_filteredMerge (conforms_prune _ _) (conforms_prune _ _))

theorem isMap_filteredMerge {current request : Tree} (hc : current.isMap = true) :
    (current.filteredMerge policy rules false request).isMap = true := by
  have kept : (current.prune rules).isMap = true := (isMap_prune current).trans hc
  rcases (blend_merge (current.prune rules) (request.prune rules)).isMap with he | ⟨he, -⟩
  · exact he.trans kept
  · rw [he] at kept
    cases kept

/-- Rules that nobody has checked prune a map unless they stand in the way of what it holds. -/
theorem pruneBy_eq_ok_iff {tree rules pruned : Tree} :
    tree.pruneBy rules = .ok pruned ↔
      tree.isMap = true ∧ (tree = .map [] ∨ rules.truthy = false ∨ rules.isMap = true) ∧
        tree.prune rules.entries = pruned := by
  cases tree with
  | scalar value => simp [pruneBy, isMap]
  | list items => simp [pruneBy, isMap]
  | map entries =>
    rw [pruneBy]
    split <;> simp_all [isMap, or_assoc]

/-- A governed map is what such rules leave of it. -/
theorem pruneBy_of_conforms {tree rules : Tree} (hm : tree.isMap = true)
    (h : Conforms governed rules.entries tree) : tree.pruneBy rules = .ok tree := by
  refine pruneBy_eq_ok_iff.mpr ⟨hm, ?_, prune_of_conforms h⟩
  cases hr : rules.isMap with
  | true => exact .inr (.inr rfl)
  | false =>
    -- Without rules nothing is governed.
    left
    obtain ⟨entries, rfl⟩ := isMap_iff.mp hm
    rw [entries_of_not_map hr] at h
    cases entries with
    | nil => rfl
    | cons entry rest =>
      have allowed := (conforms_map.mp h entry (by simp)).1
      simp [governed, ruleAt, isNull] at allowed

/-- A governed tree holds something only at paths with a rule. -/
theorem Conforms.follow_ne_null {tree : Tree} (h : Conforms governed rules tree) (hk : keys ≠ [])
    (hs : (tree.at? (keys.map .key)).isSome = true) : (Tree.map rules).follow keys ≠ .null := by
  induction keys generalizing tree rules with
  | nil => exact absurd rfl hk
  | cons name rest ih =>
    obtain ⟨held, hs⟩ := Option.isSome_iff_exists.mp hs
    obtain ⟨value, hv, deeper⟩ := Option.bind_eq_some_iff.mp (at?_cons _ _ _ ▸ hs)
    cases tree with
    | scalar value => cases hv
    | list items => cases hv
    | map entries =>
      have member := Keyed.mem_of_lookup hv
      obtain ⟨allowed, below⟩ := conforms_map.mp h _ member
      rw [follow_cons]
      cases rest with
      | nil =>
        intro missing
        have rule : ruleAt rules name = .null := missing
        simp [governed, rule, isNull] at allowed
      | cons next rest =>
        rw [← follow_entries _ (by simp)]
        exact ih below (by simp) (Option.isSome_iff_exists.mpr ⟨held, deeper⟩)

end Tree

open TenantSizing.Tree

/-- What a filtered merge gives absorbs its first side exactly, and its second side up to the order
of entries and the spelling of numbers. -/
theorem filtered_merges_absorb (policy : MergePolicy) (rules : Tree) (overwrite : Bool)
    {current : Tree} (hd : current.distinct = true) (request : Tree) :
    let merged := current.filteredMerge policy rules.entries overwrite request
    current.filteredMerge policy rules.entries overwrite merged = merged ∧
      (current.regular Scalar.isComparable = true → request.regular Scalar.isComparable = true →
        (merged.filteredMerge policy rules.entries overwrite request).same merged = true) := by
  intro merged
  cases overwrite with
  | true => exact ⟨merge_absorb hd request, same_merge_again⟩
  | false =>
    have pruned : merged.prune rules.entries = merged := prune_filteredMerge current request
    constructor
    · show (current.prune _).merge policy none (merged.prune _) = merged
      rw [pruned]
      exact merge_absorb (regular_prune hd _) _
    · intro hc hr
      show ((merged.prune _).merge policy none (request.prune _)).same merged = true
      rw [pruned]
      exact same_merge_again (regular_prune hc _) (regular_prune hr _)

def Sample.allowed : Tree :=
  .map [("cpu", .text ""), ("limits", .map [("ports", .text "")]), ("replicas", .text ""),
    ("extra", .text "")]

theorem filtered_merges_absorb_respelled :
    let merged := Sample.present.filteredMerge ⟨false, comparableKeys⟩ Sample.allowed.entries false
      Sample.requested
    Sample.present.filteredMerge ⟨false, comparableKeys⟩ Sample.allowed.entries false merged =
        merged ∧
      (merged.filteredMerge ⟨false, comparableKeys⟩ Sample.allowed.entries false
        Sample.requested).same merged = true := by
  obtain ⟨first, second⟩ := filtered_merges_absorb ⟨false, comparableKeys⟩ Sample.allowed false
    (show Sample.present.distinct = true by decide) Sample.requested
  exact ⟨first, second (by decide) (by decide)⟩

/-- What a filtered merge gives under an allow-list is governed at every path of keys, holds every
path that is left of its first side, and comes from what is left of both sides alone. Pruning goes
through for any map if there are no rules or they are a map, and what it leaves it leaves again. -/
theorem filtered_merges_stay_governed (policy : MergePolicy) (rules : Tree) {current : Tree}
    (hm : current.isMap = true) (request : Tree) :
    let merged := current.filteredMerge policy rules.entries false request
    merged.pruneBy rules = .ok merged ∧
      (∀ keys, keys ≠ [] → (merged.at? (keys.map .key)).isSome = true → rules.follow keys ≠ .null) ∧
      (∀ path, ((current.prune rules.entries).at? path).isSome = true →
        (merged.at? path).isSome = true) ∧
      (∀ others more : Tree, others.prune rules.entries = current.prune rules.entries →
        more.prune rules.entries = request.prune rules.entries →
        others.filteredMerge policy rules.entries false more = merged) ∧
      (∀ tree : Tree, tree.isMap = true → rules.truthy = false ∨ rules.isMap = true →
        ∃ pruned, tree.pruneBy rules = .ok pruned) ∧
      ∀ tree pruned : Tree, tree.pruneBy rules = .ok pruned →
        pruned.pruneBy rules = .ok pruned := by
  intro merged
  have governed : Conforms governed rules.entries merged :=
    conforms_filteredMerge (conforms_prune _ _) (conforms_prune _ _)
  refine ⟨pruneBy_of_conforms (isMap_filteredMerge hm) governed, fun keys hk hs => ?_,
    fun path hs => ?_, fun others more ho hr => ?_,
    fun tree map usable => ⟨_, pruneBy_eq_ok_iff.mpr ⟨map, .inr usable, rfl⟩⟩,
    fun tree pruned hp => ?_⟩
  · rw [← follow_entries rules hk]
    exact governed.follow_ne_null hk hs
  · exact (pointwise_merge policy).stepwise.isSome_at? none hs _
  · show (others.prune _).merge policy none (more.prune _) = merged
    rw [ho, hr]
    rfl
  · obtain ⟨map, -, rfl⟩ := pruneBy_eq_ok_iff.mp hp
    exact pruneBy_of_conforms ((isMap_prune tree).trans map) (conforms_prune tree _)

theorem filtered_merges_stay_governed_unruled :
    let merged := Sample.present.filteredMerge ⟨true, []⟩ Sample.allowed.entries false
      Sample.requested
    merged.pruneBy Sample.allowed = .ok merged ∧
      (merged.at? [.key "limits", .key "ports"]).isSome = true ∧
      (merged.at? [.key "cpu", .index 1]).isSome = true := by
  obtain ⟨pruned, -, kept, -⟩ := filtered_merges_stay_governed ⟨true, []⟩ Sample.allowed
    (show Sample.present.isMap = true from rfl) Sample.requested
  exact ⟨pruned, kept _ (by decide), kept _ (by decide)⟩

end TenantSizing
