import TenantSizing.Proofs.Sizes

namespace TenantSizing

namespace Scalar

theorem quantity?_of_rank? {s : Scalar} {q : Quantity} (h : s.rank? = some (.quantity q)) :
    s.quantity? = some q := by
  cases s with
  | bool value => cases h
  | null | int _ | float _ => simpa [rank?, profileRank?] using h
  | text name =>
    cases hp : TenantSizing.profileRank? name with
    | some position => simp [rank?, profileRank?, hp] at h
    | none => simpa [rank?, profileRank?, hp] using h

/-- Quantities are ordered among themselves only. -/
theorem isSome_quantity?_of_above {a b : Scalar} (h : a.above b = true) :
    a.quantity?.isSome = b.quantity?.isSome := by
  have amounts : ∀ {s t : Scalar}, s.above t = true ∨ t.above s = true →
      s.quantity?.isSome = true → t.quantity?.isSome = true := by
    intro s t h hs
    obtain ⟨q, hq⟩ := Option.isSome_iff_exists.mp hs
    have rank : ∃ p, t.rank? = some (.quantity p) := by
      rw [above, above, rank?_of_quantity? hq] at h
      cases ht : t.rank? with
      | none => simp [ht] at h
      | some other => cases other <;> simp_all [Rank.above]
    obtain ⟨p, hp⟩ := rank
    rw [quantity?_of_rank? hp]
    rfl
  rw [Bool.eq_iff_iff]
  exact ⟨amounts (.inl h), amounts (.inr h)⟩

end Scalar

/-- Where there was a number there is one that is no less. -/
def NoLess (before after : Option ℚ) : Prop :=
  ∀ size, before = some size → ∃ more, after = some more ∧ size ≤ more

namespace NoLess

variable {before after : Option ℚ}

theorem refl (size : Option ℚ) : NoLess size size := fun n h => ⟨n, h, le_rfl⟩

end NoLess

namespace Tree

variable {path keys : List String} {a b c s t w : Tree} {key : Option String}

/-- The number that a tree stands for, if it is a quantity. -/
def number? (tree : Tree) : Option ℚ :=
  tree.quantity?.map Quantity.value

/-- An integer that the tree equals is the number that it stands for. Of numbers with a fraction
point that holds unless their shortest numeral rounds them. -/
def Exact (tree : Tree) : Prop :=
  ∀ n : Int, tree.same (.int n) = true → tree.number? = some n

theorem exact_of_kind (h : a.kind ≠ .scalar) : a.Exact := fun _ hs => absurd (same_kind hs) h

theorem exact_null : Tree.null.Exact := by
  intro n h
  cases h

/-- A merge that goes through maps key by key, keeps the first tree where the second is of another
kind, and takes the larger one of two numbers under the keys that are allowed. It may depend on the
last key above. -/
structure Grows (allowed : Option String → Prop) (f : Option String → Tree → Tree → Tree) :
    Prop where
  null_left : ∀ key b, f key .null b = b
  null_right : ∀ key a, f key a .null = a
  clash : ∀ key a b, a.kind ≠ b.kind → a ≠ .null → f key a b = a
  blend : ∀ key a b, Blend gives a b (f key a b)
  get : ∀ key a b, a.isMap = true → b.isMap = true → ∀ name,
    (f key a b).get name = f (some name) (a.get name) (b.get name)
  number : ∀ key, allowed key → ∀ a b, a ≠ .null → a.Exact → b.Exact →
    (f key a b).number? = a.number?.map fun p => max p (b.number?.getD p)

/-- At the path the second tree holds no less than the first and is open to a number wherever the
first one is. -/
def Outgrows : List String → Tree → Tree → Prop
  | [], a, b => (a = .null → b = .null ∨ b.number?.isSome = true) ∧ NoLess a.number? b.number?
  | key :: keys, a, b =>
    (a = .null → b = .null ∨ b.isMap = true) ∧ (a.isMap = true → b.isMap = true) ∧
      (a = .null ∨ a.isMap = true → Outgrows keys (a.get key) (b.get key))

namespace Grows

variable {allowed : Option String → Prop} {f : Option String → Tree → Tree → Tree}

theorem isMap (h : Grows allowed f) (ha : a ≠ .null) (b : Tree) :
    (f key a b).isMap = a.isMap :=
  (h.blend key a b).isMap.resolve_right fun hn => ha hn.1

/-- A map stays as it is where something that is no map is merged into it. -/
theorem map_of_not_map (h : Grows allowed f) (ha : a.isMap = true) (hb : b.isMap = false) :
    f key a b = a := by
  refine h.clash key a b (fun hk => by cases a <;> cases b <;> simp_all [kind, Tree.isMap]) ?_
  rintro rfl
  cases ha

/-- Merging keeps the number at a path exact. -/
theorem exact (h : Grows allowed f) (ha : (a.follow path).Exact) (hb : (b.follow path).Exact) :
    ((f key a b).follow path).Exact := by
  induction path generalizing key a b with
  | nil =>
    rw [follow_nil] at ha hb ⊢
    have blend := h.blend key a b
    generalize f key a b = r at blend
    cases blend with
    | first => exact ha
    | second => exact hb
    | lists f items => exact exact_of_kind (by simp [kind])
    | maps f values => exact exact_of_kind (by simp [kind])
  | cons name keys ih =>
    rw [follow_cons] at ha hb ⊢
    by_cases hn : a = .null
    · rw [hn, h.null_left]
      exact hb
    cases hm : a.isMap with
    | false =>
      rw [get_of_not_map ((h.isMap hn b).trans hm), follow_null]
      exact exact_null
    | true =>
      cases hw : b.isMap with
      | false =>
        rw [h.map_of_not_map hm hw]
        exact ha
      | true =>
        rw [h.get key a b hm hw]
        exact ih ha hb

end Grows

end Tree

end TenantSizing
