import TenantSizing.Failure
import TenantSizing.Tree.Equality

namespace TenantSizing

namespace Tree

mutual

/-- How many lists and maps a tree nests. -/
def depth : Tree → Nat
  | .scalar _ => 0
  | .list items => depthOfItems items + 1
  | .map entries => depthOfEntries entries + 1

def depthOfItems : List Tree → Nat
  | [] => 0
  | item :: rest => max item.depth (depthOfItems rest)

def depthOfEntries : List (String × Tree) → Nat
  | [] => 0
  | (_, value) :: rest => max value.depth (depthOfEntries rest)

end

/-- A copy takes two calls for each level, of the thousand that may be open at once. The calls that
are open around it take the rest. -/
def maxCopied : Nat := 490

/-- A comparison takes three. -/
def maxCompared : Nat := 325

/-- A copy of its own of a tree. -/
def copy (tree : Tree) : Except Failure Tree :=
  if tree.depth ≤ maxCopied then .ok tree else .error .tooDeep

/-- Whether two trees are the same. The comparison is taken to go down to the bottom of both, even
where it could stop at a difference above. -/
def compare (a b : Tree) : Except Failure Bool :=
  if max a.depth b.depth ≤ maxCompared then .ok (a.same b) else .error .tooDeep

variable {a b tree : Tree} {n : Nat}

theorem depth_list_le {items : List Tree} :
    (Tree.list items).depth ≤ n + 1 ↔ ∀ item ∈ items, item.depth ≤ n := by
  have below : depthOfItems items ≤ n ↔ ∀ item ∈ items, item.depth ≤ n := by
    induction items with
    | nil => simp [depthOfItems]
    | cons item rest ih => rw [depthOfItems, Nat.max_le, ih, List.forall_mem_cons]
  rw [depth, Nat.add_le_add_iff_right, below]

theorem depth_map_le {entries : Entries} :
    (Tree.map entries).depth ≤ n + 1 ↔ ∀ entry ∈ entries, entry.2.depth ≤ n := by
  have below : depthOfEntries entries ≤ n ↔ ∀ entry ∈ entries, entry.2.depth ≤ n := by
    induction entries with
    | nil => simp [depthOfEntries]
    | cons entry rest ih => rw [depthOfEntries, Nat.max_le, ih, List.forall_mem_cons]
  rw [depth, Nat.add_le_add_iff_right, below]

theorem depth_le_of_mem_list {items : List Tree} {item : Tree} (h : (Tree.list items).depth ≤ n)
    (hm : item ∈ items) : item.depth ≤ n :=
  depth_list_le.mp (Nat.le_succ_of_le h) item hm

theorem depth_le_of_mem_map {entries : Entries} {entry : String × Tree}
    (h : (Tree.map entries).depth ≤ n) (hm : entry ∈ entries) : entry.2.depth ≤ n :=
  depth_map_le.mp (Nat.le_succ_of_le h) entry hm

theorem copy_of_le (h : tree.depth ≤ maxCopied) : tree.copy = .ok tree :=
  if_pos h

theorem copy_of_lt (h : maxCopied < tree.depth) : tree.copy = .error .tooDeep :=
  if_neg (by omega)

theorem copy_eq_ok (h : tree.copy = .ok a) : tree.depth ≤ maxCopied ∧ a = tree := by
  unfold copy at h
  split at h
  · exact ⟨‹_›, (Except.ok.inj h).symm⟩
  · cases h

theorem mapM_copy_of_le {trees : List Tree} (h : ∀ tree ∈ trees, tree.depth ≤ maxCopied) :
    trees.mapM copy = .ok trees := by
  induction trees with
  | nil => rfl
  | cons first rest ih =>
    rw [List.mapM_cons, copy_of_le (h first (by simp)), ih fun other ho => h other (by simp [ho])]
    rfl

theorem mapM_copy_of_lt {trees : List Tree} (h : ¬∀ tree ∈ trees, tree.depth ≤ maxCopied) :
    trees.mapM copy = .error .tooDeep := by
  induction trees with
  | nil => simp at h
  | cons first rest ih =>
    rw [List.forall_mem_cons, not_and] at h
    rw [List.mapM_cons]
    by_cases fits : first.depth ≤ maxCopied
    · rw [copy_of_le fits, ih (h fits)]
      rfl
    · rw [copy_of_lt (by omega)]
      rfl

theorem mapM_copy_eq_ok {trees copies : List Tree} (h : trees.mapM copy = .ok copies) :
    copies = trees := by
  by_cases fits : ∀ tree ∈ trees, tree.depth ≤ maxCopied
  · rw [mapM_copy_of_le fits] at h
    exact (Except.ok.inj h).symm
  · rw [mapM_copy_of_lt fits] at h
    cases h

theorem compare_eq_ok {same : Bool} (h : a.compare b = .ok same) :
    (a.depth ≤ maxCompared ∧ b.depth ≤ maxCompared) ∧ same = a.same b := by
  unfold compare at h
  split at h
  · exact ⟨by omega, (Except.ok.inj h).symm⟩
  · cases h

theorem compare_of_le (ha : a.depth ≤ maxCompared) (hb : b.depth ≤ maxCompared) :
    a.compare b = .ok (a.same b) :=
  if_pos (by omega)

end Tree

end TenantSizing
