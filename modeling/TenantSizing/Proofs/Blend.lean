import TenantSizing.Proofs.Trees

namespace TenantSizing

namespace Tree

/-- The items of two lists put together by position; the longer list keeps its end. -/
def align (f : Tree → Tree → Tree) : List Tree → List Tree → List Tree
  | [], ys => ys
  | xs, [] => xs
  | x :: xs, y :: ys => f x y :: align f xs ys

theorem mem_align {f : Tree → Tree → Tree} {xs ys : List Tree} {item : Tree}
    (h : item ∈ align f xs ys) :
    item ∈ xs ∨ item ∈ ys ∨ ∃ x ∈ xs, ∃ y ∈ ys, item = f x y := by
  induction xs generalizing ys with
  | nil =>
    rw [align] at h
    exact .inr (.inl h)
  | cons x xs ih =>
    cases ys with
    | nil =>
      rw [align] at h
      · exact .inl h
      · simp
    | cons y ys =>
      rw [align] at h
      rcases List.mem_cons.mp h with rfl | h
      · exact .inr (.inr ⟨x, by simp, y, by simp, rfl⟩)
      · rcases ih h with hx | hy | ⟨x', hx, y', hy, he⟩
        · exact .inl (List.mem_cons_of_mem _ hx)
        · exact .inr (.inl (List.mem_cons_of_mem _ hy))
        · exact .inr (.inr ⟨x', List.mem_cons_of_mem _ hx, y', List.mem_cons_of_mem _ hy, he⟩)

/-- A blend of two trees: one of the two, or lists blended by position, or maps blended by key
with what only the second holds behind the rest. `takes` tells where the second may stand alone. -/
inductive Blend (takes : Tree → Tree → Prop) : Tree → Tree → Tree → Prop where
  | first (a b : Tree) : Blend takes a b a
  | second {a b : Tree} (h : takes a b) : Blend takes a b b
  | lists {xs ys : List Tree} (f : Tree → Tree → Tree)
      (items : ∀ x ∈ xs, ∀ y ∈ ys, Blend takes x y (f x y)) :
      Blend takes (.list xs) (.list ys) (.list (align f xs ys))
  | maps {cs ss : Entries} (f : String → Tree → Tree)
      (values : ∀ entry ∈ cs,
        Blend takes entry.2 ((ss.lookup entry.1).getD .null) (f entry.1 entry.2)) :
      Blend takes (.map cs) (.map ss)
        (.map (cs.map (fun entry => (entry.1, f entry.1 entry.2)) ++ Keyed.without ss cs))

variable {takes : Tree → Tree → Prop} {a b r : Tree}

theorem Blend.mono {others : Tree → Tree → Prop} (ht : ∀ a b, takes a b → others a b)
    (h : Blend takes a b r) : Blend others a b r := by
  induction h with
  | first a b => exact .first a b
  | second h => exact .second (ht _ _ h)
  | lists f _ ih => exact .lists f ih
  | maps f _ ih => exact .maps f ih

/-- Trees of one kind blend to a tree of that kind. -/
theorem Blend.kind (h : Blend takes a b r) (hk : a.kind = b.kind) : r.kind = a.kind := by
  cases h with
  | first => rfl
  | second => exact hk.symm
  | lists => rfl
  | maps => rfl

theorem Blend.regular {pass : Scalar → Bool} (h : Blend takes a b r)
    (ha : a.regular pass = true) (hb : b.regular pass = true) (hp : pass .null = true) :
    r.regular pass = true := by
  induction h with
  | first a b => exact ha
  | second h => exact hb
  | lists f items ih =>
    have hx := regular_list.mp ha
    have hy := regular_list.mp hb
    apply regular_list.mpr
    intro item hi
    rcases mem_align hi with hi | hi | ⟨x, hxs, y, hys, rfl⟩
    · exact hx item hi
    · exact hy item hi
    · exact ih x hxs y hys (hx x hxs) (hy y hys)
  | maps f values ih =>
    rename_i cs ss
    obtain ⟨hn, hc⟩ := regular_map.mp ha
    obtain ⟨hm, hs⟩ := regular_map.mp hb
    refine regular_map.mpr ⟨?_, ?_⟩
    · have := Keyed.nodup_unite hn hm
      simpa [Keyed.keys, Function.comp_def] using this
    · intro entry he
      rcases List.mem_append.mp he with he | he
      · obtain ⟨current, hmem, rfl⟩ := List.mem_map.mp he
        exact ih current hmem (hc current hmem) (regular_lookup hs hp _)
      · exact hs entry (Keyed.mem_without.mp he).1

/-- The second tree may stand for the first where that is null, or where both or neither are
maps. -/
def gives (a b : Tree) : Prop :=
  a = .null ∨ a.isMap = b.isMap

theorem gives_of_taken (h : a = .null ∨ a.same b = true) : gives a b := by
  rcases h with h | h
  · exact .inl h
  · have hk := same_kind h
    right
    cases a <;> cases b <;> first | rfl | cases hk

/-- A blend is a map just where the first tree is one, unless that is null. -/
theorem Blend.isMap (h : Blend gives a b r) : r.isMap = a.isMap ∨ a = .null ∧ r = b := by
  cases h with
  | first => exact .inl rfl
  | second h =>
    rcases h with h | h
    · exact .inr ⟨h, rfl⟩
    · exact .inl h.symm
  | lists f items => exact .inl rfl
  | maps f values => exact .inl rfl

end Tree

end TenantSizing
