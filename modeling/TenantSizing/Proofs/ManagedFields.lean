import TenantSizing.Proofs.FilteredMerges
import TenantSizing.Proofs.Ownership

namespace TenantSizing

namespace Tree

/-- A field that belongs to the independent controller, told by its path of keys: all the way there
are maps both in the tree and in the rules, a rule stands at its end, its last key is reset, and it
is no map itself. -/
structure Managed (reset : List String) (rules : Entries) (tree : Tree) (keys : List String) :
    Prop where
  maps : ∀ above key below, keys = above ++ key :: below →
    (tree.follow above).isMap = true ∧ ((Tree.map rules).follow above).isMap = true
  governed : (Tree.map rules).follow keys ≠ .null
  reset : ∃ key ∈ reset, keys.getLast? = some key
  field : ∃ value, tree.at? (keys.map .key) = some value ∧ value.isMap = false

/-- What is left of a tree behind some keys, before and after the paths that are gone have been
removed. Of a map the other keys are left in their order. -/
inductive Left (gone : List String → Prop) (keys : List String) : Option Tree → Option Tree → Prop
  where
  | missing : Left gone keys none none
  | removed {value : Tree} (h : gone keys) : Left gone keys (some value) none
  | kept {value : Tree} (h : ¬gone keys) (leaf : value.isMap = false) :
      Left gone keys (some value) (some value)
  | map {entries left : Entries} (h : ¬gone keys)
      (order : (Keyed.keys left).Sublist (Keyed.keys entries))
      (fields : ∀ key ∈ Keyed.keys entries, key ∈ Keyed.keys left ↔ ¬gone (keys ++ [key])) :
      Left gone keys (some (.map entries)) (some (.map left))

variable {reset : List String} {rules entries : Entries} {tree value : Tree} {key : String}
  {keys : List String}

namespace Managed

theorem ne_nil (h : Managed reset rules tree keys) : keys ≠ [] := by
  rintro rfl
  obtain ⟨key, _, last⟩ := h.reset
  cases last

theorem not_nil : ¬Managed reset rules tree [] := fun h => h.ne_nil rfl

end Managed

theorem released_eq_false_iff {rule : Tree} {isMap : Bool} :
    released reset key rule isMap = false ↔ rule ≠ .null ∧ isMap = false ∧ key ∈ reset := by
  simp only [released, Bool.or_eq_false_iff, Bool.not_eq_false', List.contains_iff_mem,
    Bool.eq_false_iff (b := rule.isNull), ne_eq, isNull_iff, and_assoc]

/-- An entry that is not left to a tenant is a managed field. -/
theorem managed_singleton (hl : entries.lookup key = some value) :
    Managed reset rules (.map entries) [key] ↔
      released reset key (ruleAt rules key) value.isMap = false := by
  have at_key : (Tree.map entries).at? ([key].map .key) = some value := by
    simpa [at?_cons, child?] using hl
  rw [released_eq_false_iff]
  constructor
  · rintro ⟨-, governed, ⟨last, hr, he⟩, ⟨held, ha, leaf⟩⟩
    cases he
    obtain rfl := Option.some.inj (at_key.symm.trans ha)
    exact ⟨governed, leaf, hr⟩
  · rintro ⟨governed, leaf, hr⟩
    refine ⟨fun above last below he => ?_, governed, ⟨key, hr, rfl⟩, ⟨value, at_key, leaf⟩⟩
    obtain rfl : above = [] := by
      cases above with
      | nil => rfl
      | cons first above => simp at he
    exact ⟨rfl, rfl⟩

/-- Further down, a field is managed in the entry that its path goes through. -/
theorem managed_cons (hl : entries.lookup key = some value) (deeper : keys ≠ []) :
    Managed reset rules (.map entries) (key :: keys) ↔
      Managed reset (ruleAt rules key).entries value keys := by
  have follow_tree : ∀ above, (Tree.map entries).follow (key :: above) = value.follow above := by
    intro above
    rw [follow_cons, get_map, hl, Option.getD_some]
  have follow_rules : ∀ above, above ≠ [] →
      (Tree.map rules).follow (key :: above) = (Tree.map (ruleAt rules key).entries).follow above :=
    fun above h => (follow_entries _ h).symm
  have at_keys : (Tree.map entries).at? ((key :: keys).map .key) = value.at? (keys.map .key) := by
    rw [List.map_cons, at?_cons, child?, hl, Option.bind_some]
  have last : (key :: keys).getLast? = keys.getLast? := by
    cases keys with
    | nil => exact absurd rfl deeper
    | cons next rest => rfl
  constructor
  · rintro ⟨maps, governed, reset, field⟩
    refine ⟨fun above next below he => ?_, ?_, last ▸ reset, at_keys ▸ field⟩
    · obtain ⟨first, second⟩ := maps (key :: above) next below (by rw [he]; rfl)
      refine ⟨follow_tree above ▸ first, ?_⟩
      cases above with
      | nil => rfl
      | cons _ _ => rwa [follow_rules _ (by simp)] at second
    · rwa [follow_rules _ deeper] at governed
  · rintro ⟨maps, governed, reset, field⟩
    have rule_isMap : (ruleAt rules key).isMap = true := by
      by_contra noMap
      rw [follow_entries _ deeper, follow_of_not_map (by simpa using noMap) deeper] at governed
      exact governed rfl
    refine ⟨fun above next below he => ?_, ?_, last ▸ reset, at_keys ▸ field⟩
    · cases above with
      | nil => exact ⟨rfl, rfl⟩
      | cons first above =>
        obtain ⟨rfl, rest⟩ := List.cons.inj he
        obtain ⟨first, second⟩ := maps above next below rest
        refine ⟨(follow_tree above).symm ▸ first, ?_⟩
        cases above with
        | nil => exact rule_isMap
        | cons _ _ => rwa [follow_rules _ (by simp)]
    · rwa [follow_rules _ deeper]

theorem Conforms.unmanaged (h : Conforms (released reset) rules tree) (keys : List String) :
    ¬Managed reset rules tree keys := by
  rintro ⟨-, governed, ⟨key, hr, last⟩, ⟨value, ha, leaf⟩⟩
  obtain ⟨path, rfl⟩ := List.getLast?_eq_some_iff.mp last
  have := h.isMap_of_at? governed hr ha
  rw [leaf] at this
  cases this

theorem conforms_of_unmanaged (hd : tree.distinct = true)
    (h : ∀ keys, ¬Managed reset rules tree keys) : Conforms (released reset) rules tree := by
  induction tree generalizing rules with
  | scalar value => exact .leaf rfl
  | list items ih => exact .leaf rfl
  | map entries ih =>
    obtain ⟨nodup, values⟩ := regular_map.mp hd
    refine conforms_map.mpr fun entry he => ?_
    have hl := Keyed.lookup_of_mem nodup he
    constructor
    · rw [← Bool.not_eq_false]
      exact fun dropped => h [entry.1] ((managed_singleton hl).mpr dropped)
    · refine ih entry he (values entry he) fun keys managed => ?_
      exact h (entry.1 :: keys) ((managed_cons hl managed.ne_nil).mpr managed)

/-- A reset leaves a tree as it is just if no field in it is managed. -/
theorem unmanaged_iff (hd : tree.distinct = true) :
    (∀ keys, ¬Managed reset rules tree keys) ↔ tree.dropManaged reset rules = tree := by
  constructor
  · exact fun h => dropManaged_of_conforms (conforms_of_unmanaged hd h)
  · intro h
    have conforms : Conforms (released reset) rules (tree.dropManaged reset rules) :=
      conforms_dropManaged tree rules
    rw [h] at conforms
    exact conforms.unmanaged

theorem Left.congr {gone gone' : List String → Prop} {keys' : List String}
    {before after : Option Tree} (h : Left gone keys before after) (here : gone keys ↔ gone' keys')
    (below : ∀ key, gone (keys ++ [key]) ↔ gone' (keys' ++ [key])) :
    Left gone' keys' before after := by
  cases h with
  | missing => exact .missing
  | removed h => exact .removed (here.mp h)
  | kept h leaf => exact .kept (here.not.mp h) leaf
  | map h order fields =>
    exact .map (here.not.mp h) order fun key hk => (fields key hk).trans (below key).not

/-- Choosing entries by their keys leaves the others in their order. -/
theorem left_select {gone : List String → Prop} {keep : String × Tree → Bool}
    {change : String × Tree → Tree} (h : ¬gone keys)
    (hk : ∀ entry ∈ entries, keep entry = true ↔ ¬gone (keys ++ [entry.1])) :
    Left gone keys (some (.map entries)) (some (.map (select keep change entries))) := by
  have kept : Keyed.keys (select keep change entries) = Keyed.keys (entries.filter keep) := by
    simp [select, Keyed.keys, Function.comp_def]
  refine .map h (kept ▸ List.filter_sublist.map _) fun key hm => ?_
  rw [kept]
  constructor
  · intro left
    obtain ⟨entry, he, rfl⟩ := List.mem_map.mp left
    obtain ⟨he, passed⟩ := List.mem_filter.mp he
    exact (hk entry he).mp passed
  · intro left
    obtain ⟨entry, he, rfl⟩ := List.mem_map.mp hm
    exact List.mem_map.mpr ⟨entry, List.mem_filter.mpr ⟨he, (hk entry he).mpr left⟩, rfl⟩

/-- By induction on the keys: the first one leads into an entry that is left, or to one that is
dropped whole. -/
theorem left_dropManaged (hd : tree.distinct = true) (keys : List String) :
    Left (Managed reset rules tree) keys (tree.at? (keys.map .key))
      ((tree.dropManaged reset rules).at? (keys.map .key)) := by
  induction keys generalizing tree rules with
  | nil =>
    cases tree with
    | scalar value => exact .kept Managed.not_nil rfl
    | list items => exact .kept Managed.not_nil rfl
    | map entries =>
      obtain ⟨nodup, -⟩ := regular_map.mp hd
      rw [dropManaged_map]
      refine left_select Managed.not_nil fun entry he => ?_
      rw [List.nil_append, managed_singleton (Keyed.lookup_of_mem nodup he), Bool.not_eq_false]
  | cons key keys ih =>
    cases tree with
    | scalar value => exact .missing
    | list items => exact .missing
    | map entries =>
      obtain ⟨nodup, values⟩ := regular_map.mp hd
      rw [dropManaged_map, List.map_cons, at?_cons, at?_cons, child?, child?, lookup_select nodup]
      cases hl : entries.lookup key with
      | none => exact .missing
      | some value =>
        rw [Option.bind_some, Option.bind_some]
        cases hr : released reset key (ruleAt rules key) value.isMap with
        | true =>
          refine (ih (values _ (Keyed.mem_of_lookup hl))).congr ?_ fun next =>
            (managed_cons hl (by simp)).symm
          by_cases last : keys = []
          · subst last
            simp [managed_singleton hl, hr, Managed.not_nil]
          · exact (managed_cons hl last).symm
        | false =>
          cases keys with
          | nil => exact .removed ((managed_singleton hl).mpr hr)
          | cons next rest =>
            obtain ⟨-, leaf, -⟩ := released_eq_false_iff.mp hr
            rw [at?_of_not_map leaf (by simp)]
            exact .missing

theorem select_select (keep other : String × Tree → Bool) (change more : String × Tree → Tree)
    (entries : Entries) : select other more (select keep change entries) =
      select (fun entry => keep entry && other (entry.1, change entry))
        (fun entry => more (entry.1, change entry)) entries := by
  induction entries with
  | nil => rfl
  | cons entry rest ih =>
    simp only [select] at ih ⊢
    cases hk : keep entry with
    | false => simpa [hk] using ih
    | true => cases ho : other (entry.1, change entry) <;> simpa [hk, ho] using ih

theorem select_congr {keep other : String × Tree → Bool} {change more : String × Tree → Tree}
    (hk : ∀ entry ∈ entries, keep entry = other entry)
    (hc : ∀ entry ∈ entries, change entry = more entry) :
    select keep change entries = select other more entries := by
  rw [select, select, List.filter_congr hk]
  refine List.map_congr_left fun entry he => ?_
  rw [hc entry (List.mem_of_mem_filter he)]

/-- Both look at the rules and at what is a map, and neither changes that. -/
theorem dropManaged_prune (tree : Tree) (rules : Entries) :
    (tree.prune rules).dropManaged reset rules = (tree.dropManaged reset rules).prune rules := by
  induction tree generalizing rules with
  | scalar value => rfl
  | list items ih => rfl
  | map entries ih =>
    rw [prune_map, dropManaged_map, dropManaged_map, prune_map, select_select, select_select]
    congr 1
    refine select_congr (fun entry he => ?_) fun entry he => ih entry he _
    simp only [admits, isMap_prune, isMap_dropManaged]
    exact Bool.and_comm _ _

end Tree

open TenantSizing.Tree

/-- A reset removes the managed fields and nothing else: behind any keys the other entries are left,
in their order, and what is no map stays as it is. Resetting again changes nothing, and it does not
matter whether the tree is pruned by the same rules before or after. No merge of two trees without
managed fields has one. -/
theorem resets_remove_managed_fields (reset : List String) (rules : Entries) {tree : Tree}
    (hd : tree.distinct = true) :
    (∀ keys, Left (Managed reset rules tree) keys (tree.at? (keys.map .key))
      ((tree.dropManaged reset rules).at? (keys.map .key))) ∧
    (tree.dropManaged reset rules).dropManaged reset rules = tree.dropManaged reset rules ∧
    (tree.prune rules).dropManaged reset rules = (tree.dropManaged reset rules).prune rules ∧
    ∀ other : Tree, other.distinct = true → (∀ keys, ¬Managed reset rules tree keys) →
      (∀ keys, ¬Managed reset rules other keys) →
      (∀ policy overwrite keys,
        ¬Managed reset rules (tree.filteredMerge policy rules overwrite other) keys) ∧
      ∀ x keys, ¬Managed reset rules (tree.extremeMerge x other) keys := by
  refine ⟨left_dropManaged hd, dropManaged_of_conforms (conforms_dropManaged _ _),
    dropManaged_prune tree rules, fun other ho first second => ?_⟩
  have conforms := conforms_of_unmanaged hd first
  have conforms' := conforms_of_unmanaged ho second
  constructor
  · intro policy overwrite
    apply Conforms.unmanaged
    cases overwrite with
    | true => exact (blend_merge tree other).conforms conforms conforms'
    | false => exact conforms_filteredMerge conforms.prune conforms'.prune
  · intro x
    exact ((blend_extremeMerge tree other).conforms conforms conforms').unmanaged

/-- Rules for the replicas of a cluster, and for its labels as a whole. -/
def Sample.clusterRules : Entries :=
  [("cluster", .map [("replicas", .bool true), ("labels", .bool true)]), ("memory", .bool true)]

/-- A managed field, and others that only look like one: no rule stands for them, they are in a list
or behind a rule that is no map, or they hold a map. -/
def Sample.clustered : Tree :=
  .map [("replicas", .int 1), ("cluster", .map [("cpu", .text "1"), ("replicas", .int 3),
      ("labels", .map [("cpu", .text "high")])]),
    ("memory", .map [("memory", .text "1Gi")]), ("list", .list [.map [("replicas", .int 2)]])]

theorem resets_remove_managed_fields_clustered :
    Managed resetKeys Sample.clusterRules Sample.clustered ["cluster", "replicas"] ∧
      Sample.clustered.dropManaged resetKeys Sample.clusterRules =
        .map [("replicas", .int 1), ("cluster", .map [("cpu", .text "1"),
            ("labels", .map [("cpu", .text "high")])]),
          ("memory", .map [("memory", .text "1Gi")]),
          ("list", .list [.map [("replicas", .int 2)]])] ∧
      ∀ keys, ¬Managed resetKeys Sample.clusterRules ((Tree.map [("cluster", .null)]).extremeMerge
        .max (Sample.clustered.dropManaged resetKeys Sample.clusterRules)) keys := by
  obtain ⟨-, again, -, -⟩ := resets_remove_managed_fields resetKeys Sample.clusterRules
    (show Sample.clustered.distinct = true by decide)
  obtain ⟨-, -, -, merges⟩ := resets_remove_managed_fields resetKeys Sample.clusterRules
    (show (Tree.map [("cluster", .null)]).distinct = true by decide)
  have managed : Managed resetKeys Sample.clusterRules Sample.clustered ["cluster", "replicas"] :=
    (managed_cons rfl (by simp)).mpr ((managed_singleton rfl).mpr rfl)
  refine ⟨managed, rfl, ?_⟩
  have regular : (Sample.clustered.dropManaged resetKeys Sample.clusterRules).distinct = true :=
    regular_dropManaged (by decide) _
  obtain ⟨-, raised⟩ := merges (Sample.clustered.dropManaged resetKeys Sample.clusterRules) regular
    ((unmanaged_iff (by decide)).mpr rfl) ((unmanaged_iff regular).mpr again)
  exact raised .max

end TenantSizing
