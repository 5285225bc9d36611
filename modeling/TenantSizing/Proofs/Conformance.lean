import TenantSizing.Merge.Managed
import TenantSizing.Merge.Prune
import TenantSizing.Proofs.Blend

namespace TenantSizing

namespace Tree

/-- The rule at a key, null if there is none. -/
abbrev ruleAt (rules : Entries) (key : String) : Tree :=
  (rules.lookup key).getD .null

/-- Each entry of each map is allowed by its key, by the rule at that key, and by whether it is a
map itself. Lists are not entered. -/
inductive Conforms (allow : String → Tree → Bool → Bool) : Entries → Tree → Prop where
  | leaf {rules : Entries} {tree : Tree} (h : tree.isMap = false) : Conforms allow rules tree
  | map {rules entries : Entries}
      (allowed : ∀ entry ∈ entries, allow entry.1 (ruleAt rules entry.1) entry.2.isMap = true)
      (below : ∀ entry ∈ entries, Conforms allow (ruleAt rules entry.1).entries entry.2) :
      Conforms allow rules (.map entries)

variable {allow : String → Tree → Bool → Bool} {rules : Entries} {reset : List String}

theorem conforms_map {entries : Entries} :
    Conforms allow rules (.map entries) ↔ ∀ entry ∈ entries,
      allow entry.1 (ruleAt rules entry.1) entry.2.isMap = true ∧
        Conforms allow (ruleAt rules entry.1).entries entry.2 := by
  constructor
  · intro h
    cases h with
    | leaf h => cases h
    | map allowed below => exact fun entry he => ⟨allowed entry he, below entry he⟩
  · intro h
    exact .map (fun entry he => (h entry he).1) (fun entry he => (h entry he).2)

theorem conforms_null : Conforms allow rules .null :=
  .leaf rfl

theorem Conforms.lookup {entries : Entries} (h : Conforms allow rules (.map entries))
    (key : String) :
    Conforms allow (ruleAt rules key).entries ((entries.lookup key).getD .null) := by
  cases hl : entries.lookup key with
  | none => exact conforms_null
  | some value => exact (conforms_map.mp h _ (Keyed.mem_of_lookup hl)).2

/-- Blends of conforming trees conform. Where a map comes to stand for a null, it has been allowed
in the second tree. -/
theorem Blend.conforms {a b r : Tree} (h : Blend gives a b r) (ha : Conforms allow rules a)
    (hb : Conforms allow rules b) : Conforms allow rules r := by
  induction h generalizing rules with
  | first a b => exact ha
  | second h => exact hb
  | lists f items ih => exact .leaf rfl
  | maps f values ih =>
    rename_i cs ss
    have hc := conforms_map.mp ha
    have hs := conforms_map.mp hb
    apply conforms_map.mpr
    intro entry he
    rcases List.mem_append.mp he with he | he
    · obtain ⟨current, hm, rfl⟩ := List.mem_map.mp he
      obtain ⟨hallow, hbelow⟩ := hc current hm
      refine ⟨?_, ih current hm hbelow (hb.lookup current.1)⟩
      rcases (values current hm).isMap with hk | ⟨hn, hk⟩
      · rw [hk]
        exact hallow
      · rw [hk]
        cases hl : ss.lookup current.1 with
        | none =>
          rw [hn] at hallow
          exact hallow
        | some value => exact (hs _ (Keyed.mem_of_lookup hl)).1
    · exact hs entry (Keyed.mem_without.mp he).1

/-- Entries chosen by a test, with their values changed. -/
def select (keep : String × Tree → Bool) (change : String × Tree → Tree) (entries : Entries) :
    Entries :=
  (entries.filter keep).map fun entry => (entry.1, change entry)

theorem mem_select {keep : String × Tree → Bool} {change : String × Tree → Tree}
    {entries : Entries} {entry : String × Tree} (h : entry ∈ select keep change entries) :
    ∃ before ∈ entries, keep before = true ∧ entry = (before.1, change before) := by
  obtain ⟨before, hm, rfl⟩ := List.mem_map.mp h
  obtain ⟨hm, hk⟩ := List.mem_filter.mp hm
  exact ⟨before, hm, hk, rfl⟩

theorem regular_select {pass : Scalar → Bool} {keep : String × Tree → Bool}
    {change : String × Tree → Tree} {entries : Entries} (h : regular pass (.map entries) = true)
    (hc : ∀ entry ∈ entries, regular pass (change entry) = true) :
    regular pass (.map (select keep change entries)) = true := by
  refine regular_map.mpr ⟨?_, ?_⟩
  · have hs : (Keyed.keys (entries.filter keep)).Nodup :=
      (regular_map.mp h).1.sublist (List.filter_sublist.map _)
    simpa [select, Keyed.keys, Function.comp_def] using hs
  · intro entry he
    obtain ⟨before, hm, _, rfl⟩ := mem_select he
    exact hc before hm

/-- Choosing entries keeps a map conforming if each changed value conforms and is a map just where
it was one. -/
theorem Conforms.select {keep : String × Tree → Bool} {change : String × Tree → Tree}
    {entries : Entries} (h : Conforms allow rules (.map entries))
    (hk : ∀ entry, (change entry).isMap = entry.2.isMap)
    (hc : ∀ entry ∈ entries, Conforms allow (ruleAt rules entry.1).entries (change entry)) :
    Conforms allow rules (.map (Tree.select keep change entries)) := by
  apply conforms_map.mpr
  intro entry he
  obtain ⟨before, hm, _, rfl⟩ := mem_select he
  refine ⟨?_, hc before hm⟩
  rw [hk before]
  exact (conforms_map.mp h before hm).1

/-- If every entry is kept as it is, all stay. -/
theorem select_eq_self {keep : String × Tree → Bool} {change : String × Tree → Tree}
    {entries : Entries} (hk : ∀ entry ∈ entries, keep entry = true)
    (hc : ∀ entry ∈ entries, change entry = entry.2) : select keep change entries = entries := by
  rw [select, List.filter_eq_self.mpr hk]
  calc entries.map (fun entry => (entry.1, change entry))
      = entries.map id := List.map_congr_left fun entry he => by rw [hc entry he]; rfl
    _ = entries := List.map_id entries

/-- What is left under a key is decided by the entry that counts. -/
theorem lookup_select {keep : String × Tree → Bool} {change : String × Tree → Tree}
    {entries : Entries} {key : String} (hn : (Keyed.keys entries).Nodup) :
    (select keep change entries).lookup key =
      (entries.lookup key).bind fun value =>
        if keep (key, value) then some (change (key, value)) else none := by
  induction entries with
  | nil => rfl
  | cons entry rest ih =>
    obtain ⟨k, v⟩ := entry
    simp only [Keyed.keys, List.map_cons, List.nodup_cons] at hn
    have tail := ih hn.2
    simp only [select] at tail ⊢
    by_cases hk : key = k
    · subst hk
      have absent : rest.lookup key = none := by
        cases hl : rest.lookup key with
        | none => rfl
        | some value =>
          exact absurd (List.mem_map.mpr ⟨_, Keyed.mem_of_lookup hl, rfl⟩) hn.1
      rw [absent] at tail
      by_cases hp : keep (key, v) = true
      · simp [hp]
      · simpa [hp] using tail
    · by_cases hp : keep (k, v) = true
      · simpa [hp, hk] using tail
      · simpa [hp, hk] using tail

theorem lookup_select_of_keep {keep : String × Tree → Bool} {change : String × Tree → Tree}
    {entries : Entries} {key : String} {value : Tree} (hl : entries.lookup key = some value)
    (hk : keep (key, value) = true) :
    (select keep change entries).lookup key = some (change (key, value)) := by
  induction entries with
  | nil => cases hl
  | cons entry rest ih =>
    obtain ⟨k, v⟩ := entry
    rw [Keyed.lookup_cons] at hl
    simp only [select] at ih ⊢
    by_cases he : key = k
    · rw [if_pos he] at hl
      cases hl
      simp [← he, hk]
    · rw [if_neg he] at hl
      by_cases hp : keep (k, v) = true
      · simpa [hp, he] using ih hl
      · simpa [hp] using ih hl

theorem lookup_select_of_none {keep : String × Tree → Bool} {change : String × Tree → Tree}
    {entries : Entries} {key : String} (hl : entries.lookup key = none) :
    (select keep change entries).lookup key = none := by
  cases hs : (select keep change entries).lookup key with
  | none => rfl
  | some value =>
    obtain ⟨before, hm, _, he⟩ := mem_select (Keyed.mem_of_lookup hs)
    have absent := Keyed.has_of_mem hm
    rw [← congrArg Prod.fst he, Keyed.has, hl] at absent
    cases absent

/-- An entry is left to a tenant unless the rules govern it, its key is reset, and it is no map. -/
def released (reset : List String) (key : String) (rule : Tree) (isMap : Bool) : Bool :=
  rule.isNull || isMap || !reset.contains key

theorem dropped_eq (reset : List String) (key : String) (rule : Tree) (isMap : Bool) :
    (!rule.isNull && !isMap && reset.contains key) = !released reset key rule isMap := by
  unfold released
  cases rule.isNull <;> cases isMap <;> simp

theorem dropManagedEntries_eq (entries : Entries) :
    dropManagedEntries reset entries rules =
      select (fun entry => released reset entry.1 (ruleAt rules entry.1) entry.2.isMap)
        (fun entry => entry.2.dropManaged reset (ruleAt rules entry.1).entries) entries := by
  induction entries with
  | nil => rfl
  | cons entry rest ih =>
    obtain ⟨key, value⟩ := entry
    rw [dropManagedEntries, ih]
    show (if (!(ruleAt rules key).isNull && !value.isMap && reset.contains key) = true then _
      else _) = _
    rw [dropped_eq]
    by_cases h : released reset key (ruleAt rules key) value.isMap = true <;> simp [select, h]

theorem dropManaged_map (entries : Entries) :
    (Tree.map entries).dropManaged reset rules =
      .map (select (fun entry => released reset entry.1 (ruleAt rules entry.1) entry.2.isMap)
        (fun entry => entry.2.dropManaged reset (ruleAt rules entry.1).entries) entries) := by
  rw [dropManaged, dropManagedEntries_eq]

theorem isMap_dropManaged (tree : Tree) : (tree.dropManaged reset rules).isMap = tree.isMap := by
  cases tree <;> rfl

/-- Nothing that is reset is left. -/
theorem conforms_dropManaged (tree : Tree) (rules : Entries) :
    Conforms (released reset) rules (tree.dropManaged reset rules) := by
  induction tree generalizing rules with
  | scalar value => exact .leaf rfl
  | list items ih => exact .leaf rfl
  | map entries ih =>
    rw [dropManaged_map]
    apply conforms_map.mpr
    intro entry he
    obtain ⟨before, hm, hk, rfl⟩ := mem_select he
    refine ⟨?_, ih before hm _⟩
    rw [isMap_dropManaged]
    exact hk

theorem dropManaged_of_conforms {tree : Tree} (h : Conforms (released reset) rules tree) :
    tree.dropManaged reset rules = tree := by
  induction tree generalizing rules with
  | scalar value => rfl
  | list items ih => rfl
  | map entries ih =>
    have hc := conforms_map.mp h
    rw [dropManaged_map, select_eq_self]
    · exact fun entry he => (hc entry he).1
    · exact fun entry he => ih entry he (hc entry he).2

theorem released_of_no_rules (tree : Tree) : Conforms (released reset) [] tree := by
  induction tree with
  | scalar value => exact .leaf rfl
  | list items ih => exact .leaf rfl
  | map entries ih => exact .map (fun _ _ => rfl) ih

theorem regular_dropManaged {pass : Scalar → Bool} {tree : Tree} (h : tree.regular pass = true)
    (rules : Entries) : (tree.dropManaged reset rules).regular pass = true := by
  induction tree generalizing rules with
  | scalar value => exact h
  | list items ih => exact h
  | map entries ih =>
    rw [dropManaged_map]
    exact regular_select h fun entry he => ih entry he ((regular_map.mp h).2 entry he) _

/-- An entry is governed if there is a rule for it and, should it be a map, one that is a map. -/
def governed (_ : String) (rule : Tree) (isMap : Bool) : Bool :=
  !rule.isNull && (!isMap || rule.isMap)

theorem pruneEntries_eq (entries : Entries) :
    pruneEntries entries rules =
      select (fun entry => (ruleAt rules entry.1).admits entry.2)
        (fun entry => entry.2.prune (ruleAt rules entry.1).entries) entries := by
  induction entries with
  | nil => rfl
  | cons entry rest ih =>
    obtain ⟨key, value⟩ := entry
    rw [pruneEntries, ih]
    by_cases h : (ruleAt rules key).admits value = true <;> simp [select, h]

theorem prune_map (entries : Entries) :
    (Tree.map entries).prune rules =
      .map (select (fun entry => (ruleAt rules entry.1).admits entry.2)
        (fun entry => entry.2.prune (ruleAt rules entry.1).entries) entries) := by
  rw [prune, pruneEntries_eq]

theorem isMap_prune (tree : Tree) : (tree.prune rules).isMap = tree.isMap := by
  cases tree <;> rfl

/-- Everything left is governed. -/
theorem conforms_prune (tree : Tree) (rules : Entries) :
    Conforms governed rules (tree.prune rules) := by
  induction tree generalizing rules with
  | scalar value => exact .leaf rfl
  | list items ih => exact .leaf rfl
  | map entries ih =>
    rw [prune_map]
    apply conforms_map.mpr
    intro entry he
    obtain ⟨before, hm, hk, rfl⟩ := mem_select he
    refine ⟨?_, ih before hm _⟩
    rw [isMap_prune]
    exact hk

theorem prune_of_conforms {tree : Tree} (h : Conforms governed rules tree) :
    tree.prune rules = tree := by
  induction tree generalizing rules with
  | scalar value => rfl
  | list items ih => rfl
  | map entries ih =>
    have hc := conforms_map.mp h
    rw [prune_map, select_eq_self]
    · exact fun entry he => (hc entry he).1
    · exact fun entry he => ih entry he (hc entry he).2

theorem Conforms.prune {tree : Tree} (h : Conforms allow rules tree) :
    Conforms allow rules (tree.prune rules) := by
  induction tree generalizing rules with
  | scalar value => exact h
  | list items ih => exact h
  | map entries ih =>
    rw [prune_map]
    exact h.select (fun entry => isMap_prune entry.2)
      fun entry he => ih entry he (conforms_map.mp h entry he).2

theorem regular_prune {pass : Scalar → Bool} {tree : Tree} (h : tree.regular pass = true)
    (rules : Entries) : (tree.prune rules).regular pass = true := by
  induction tree generalizing rules with
  | scalar value => exact h
  | list items ih => exact h
  | map entries ih =>
    rw [prune_map]
    exact regular_select h fun entry he => ih entry he ((regular_map.mp h).2 entry he) _

end Tree

end TenantSizing
