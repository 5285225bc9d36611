import TenantSizing.Proofs.Growth

namespace TenantSizing

/-- The classes of values that are ordered among themselves. -/
inductive Measure where
  | flag
  | profile
  | size
  deriving DecidableEq, Repr

/-- What a value weighs in a class, if it is in it. -/
def Scalar.weight? (measure : Measure) (s : Scalar) : Option ℚ :=
  match measure, s with
  | .flag, .bool value => some (if value then 1 else 0)
  | .flag, _ => none
  | .profile, s => s.profileRank?.map Nat.cast
  | .size, s => s.quantity?.map Quantity.value

def Tree.weight? (measure : Measure) : Tree → Option ℚ
  | .scalar s => s.weight? measure
  | _ => none

namespace Rank

def measure : Rank → Measure
  | .flag _ => .flag
  | .profile _ => .profile
  | .quantity _ => .size

def weight : Rank → ℚ
  | .flag value => if value then 1 else 0
  | .profile position => position
  | .quantity amount => amount.value

theorem above_iff (p q : Rank) :
    p.above q = true ↔ p.measure = q.measure ∧ q.weight < p.weight := by
  cases p with
  | flag a =>
    cases q with
    | flag b => cases a <;> cases b <;> simp [above, measure, weight]
    | _ => simp [above, measure]
  | profile m =>
    cases q with
    | profile n => simp [above, measure, weight]
    | _ => simp [above, measure]
  | quantity a =>
    cases q with
    | quantity b => simp [above, measure, weight, Quantity.lt_iff]
    | _ => simp [above, measure]

end Rank

namespace Scalar

variable {a b s : Scalar} {measure : Measure} {p q : ℚ}

theorem rank?_eq_flag {value : Bool} : s.rank? = some (.flag value) ↔ s = .bool value := by
  cases s with
  | bool other => simp [rank?]
  | text name => cases hp : TenantSizing.profileRank? name <;> simp [rank?, profileRank?, hp]
  | _ => simp [rank?, profileRank?]

theorem rank?_eq_profile {position : Nat} :
    s.rank? = some (.profile position) ↔ s.profileRank? = some position := by
  cases s with
  | text name => cases hp : TenantSizing.profileRank? name <;> simp [rank?, profileRank?, hp]
  | _ => simp [rank?, profileRank?]

theorem weight?_eq_some : s.weight? measure = some p ↔
    ∃ rank, s.rank? = some rank ∧ rank.measure = measure ∧ rank.weight = p := by
  constructor
  · intro weighs
    cases measure with
    | flag =>
      cases s with
      | bool value => exact ⟨.flag value, rfl, rfl, Option.some_inj.mp weighs⟩
      | _ => cases weighs
    | profile =>
      obtain ⟨position, named, rfl⟩ := Option.map_eq_some_iff.mp weighs
      exact ⟨.profile position, rank?_eq_profile.mpr named, rfl, rfl⟩
    | size =>
      obtain ⟨amount, read, rfl⟩ := Option.map_eq_some_iff.mp weighs
      exact ⟨.quantity amount, rank?_of_quantity? read, rfl, rfl⟩
  · rintro ⟨rank, ranked, rfl, rfl⟩
    cases rank with
    | flag value => rw [rank?_eq_flag.mp ranked]; rfl
    | profile position => exact congrArg (Option.map _) (rank?_eq_profile.mp ranked)
    | quantity amount => exact congrArg (Option.map _) (quantity?_of_rank? ranked)

/-- No value is in two classes. -/
theorem weight?_unique {other : Measure} (h : s.weight? measure = some p)
    (h' : s.weight? other = some q) : measure = other := by
  obtain ⟨rank, ranked, rfl, _⟩ := weight?_eq_some.mp h
  obtain ⟨rank', ranked', rfl, _⟩ := weight?_eq_some.mp h'
  cases ranked.symm.trans ranked'
  rfl

theorem above_iff_weight? : a.above b = true ↔
    ∃ measure p q, a.weight? measure = some p ∧ b.weight? measure = some q ∧ q < p := by
  unfold above
  constructor
  · intro h
    split at h
    · rename_i rank rank' ha hb
      obtain ⟨same, less⟩ := (Rank.above_iff rank rank').mp h
      exact ⟨_, _, _, weight?_eq_some.mpr ⟨rank, ha, rfl, rfl⟩,
        weight?_eq_some.mpr ⟨rank', hb, same.symm, rfl⟩, less⟩
    · cases h
  · rintro ⟨measure, p, q, ha, hb, less⟩
    obtain ⟨rank, ranked, rfl, rfl⟩ := weight?_eq_some.mp ha
    obtain ⟨rank', ranked', same, rfl⟩ := weight?_eq_some.mp hb
    rw [ranked, ranked']
    exact (Rank.above_iff rank rank').mpr ⟨same.symm, less⟩

theorem above_iff_lt (ha : a.weight? measure = some p) (hb : b.weight? measure = some q) :
    a.above b = true ↔ q < p := by
  rw [above_iff_weight?]
  constructor
  · rintro ⟨other, p', q', ha', hb', less⟩
    cases weight?_unique ha ha'
    cases ha.symm.trans ha'
    cases hb.symm.trans hb'
    exact less
  · exact fun less => ⟨measure, p, q, ha, hb, less⟩

end Scalar

namespace Tree

variable {a b : Tree}

theorem weight?_eq_some {tree : Tree} {measure : Measure} {p : ℚ} :
    tree.weight? measure = some p ↔ ∃ s, tree = .scalar s ∧ s.weight? measure = some p := by
  cases tree <;> simp [weight?]

/-- Two values of one class come in their order; the first comes twice if they weigh the same. -/
theorem compare_of_weights {measure : Measure} {p q : ℚ} (hp : a.weight? measure = some p)
    (hq : b.weight? measure = some q) : (a.larger b, a.smaller b) =
      if p < q then (b, a) else if q < p then (a, b) else (a, a) := by
  obtain ⟨s, rfl, hp⟩ := weight?_eq_some.mp hp
  obtain ⟨t, rfl, hq⟩ := weight?_eq_some.mp hq
  have up := Scalar.above_iff_lt hq hp
  have down := Scalar.above_iff_lt hp hq
  unfold larger smaller Scalar.larger Scalar.smaller
  dsimp only
  rcases lt_trichotomy p q with less | same | more
  · rw [if_pos (up.mpr less), if_neg (mt down.mp less.asymm), if_pos less]
  · rw [if_neg (mt up.mp same.not_lt), if_neg (mt down.mp same.not_gt), if_neg same.not_lt,
      if_neg same.not_gt]
  · rw [if_neg (mt up.mp more.asymm), if_pos (down.mpr more), if_neg more.asymm, if_pos more]

/-- Two values that share no class are not ordered. -/
theorem compare_of_apart (h : ∀ measure, a.weight? measure = none ∨ b.weight? measure = none) :
    (a.larger b, a.smaller b) = (a, a) := by
  have apart : ∀ s t : Scalar, a = .scalar s → b = .scalar t → ¬∃ measure p q,
      s.weight? measure = some p ∧ t.weight? measure = some q := by
    rintro s t rfl rfl ⟨measure, p, q, hp, hq⟩
    rcases h measure with none | none
    · cases none.symm.trans hp
    · cases none.symm.trans hq
  cases a with
  | scalar s =>
    cases b with
    | scalar t =>
      have up : ¬t.above s = true := fun above => by
        obtain ⟨measure, q, p, hq, hp, _⟩ := Scalar.above_iff_weight?.mp above
        exact apart s t rfl rfl ⟨measure, p, q, hp, hq⟩
      have down : ¬s.above t = true := fun above => by
        obtain ⟨measure, p, q, hp, hq, _⟩ := Scalar.above_iff_weight?.mp above
        exact apart s t rfl rfl ⟨measure, p, q, hp, hq⟩
      unfold larger smaller Scalar.larger Scalar.smaller
      dsimp only
      rw [if_neg up, if_neg down]
    | _ => rfl
  | _ => rfl

end Tree

namespace Extreme

variable {x : Extreme} {a b : Scalar} {measure : Measure} {p q : ℚ}

/-- The first weight is strictly further on the way to the extreme. -/
def Ahead : Extreme → ℚ → ℚ → Prop
  | .max, p, q => q < p
  | .min, p, q => p < q

theorem Ahead.asymm (h : x.Ahead p q) : ¬x.Ahead q p := by
  cases x with
  | max => exact lt_asymm h
  | min => exact lt_asymm h

theorem not_ahead_trans {x : Extreme} {p q r : ℚ} (h : ¬x.Ahead p q) (h' : x.Ahead r q) :
    x.Ahead r p := by
  cases x with
  | max => exact lt_of_le_of_lt (not_lt.mp h) h'
  | min => exact lt_of_lt_of_le h' (not_lt.mp h)

theorem eq_of_not_ahead (h : ¬x.Ahead p q) (h' : ¬x.Ahead q p) : p = q := by
  cases x with
  | max => exact le_antisymm (not_lt.mp h) (not_lt.mp h')
  | min => exact le_antisymm (not_lt.mp h') (not_lt.mp h)

theorem pick_eq_right (h : ∃ measure p q, a.weight? measure = some p ∧ b.weight? measure = some q ∧
    x.Ahead q p) : x.pick a b = b := by
  obtain ⟨measure, p, q, ha, hb, ahead⟩ := h
  cases x with
  | max => exact if_pos ((Scalar.above_iff_lt hb ha).mpr ahead)
  | min => exact if_pos ((Scalar.above_iff_lt ha hb).mpr ahead)

theorem pick_eq_left (h : ∀ measure p q, a.weight? measure = some p → b.weight? measure = some q →
    ¬x.Ahead q p) : x.pick a b = a := by
  cases x with
  | max =>
    refine if_neg fun above => ?_
    obtain ⟨measure, q, p, hb, ha, less⟩ := Scalar.above_iff_weight?.mp above
    exact h measure p q ha hb less
  | min =>
    refine if_neg fun above => ?_
    obtain ⟨measure, p, q, ha, hb, less⟩ := Scalar.above_iff_weight?.mp above
    exact h measure p q ha hb less

/-- The earliest of the values in a class that none of them is ahead of. -/
def IsFirstBest (x : Extreme) (measure : Measure) (values : List Scalar) (best : Scalar) : Prop :=
  ∃ before after weight, values = before ++ best :: after ∧ best.weight? measure = some weight ∧
    (∀ value ∈ before, ∀ w, value.weight? measure = some w → x.Ahead weight w) ∧
    ∀ value ∈ after, ∀ w, value.weight? measure = some w → ¬x.Ahead w weight

theorem isFirstBest_singleton (h : a.weight? measure = some p) :
    x.IsFirstBest measure [a] a :=
  ⟨[], [], p, rfl, h, nofun, nofun⟩

/-- One more value is picked only if it is ahead of all in front of it. -/
theorem IsFirstBest.pick {values : List Scalar} (h : x.IsFirstBest measure values a) (b : Scalar) :
    x.IsFirstBest measure (values ++ [b]) (x.pick a b) := by
  obtain ⟨before, after, weight, rfl, weighs, ahead, behind⟩ := h
  by_cases better : ∃ w, b.weight? measure = some w ∧ x.Ahead w weight
  · obtain ⟨w, hb, better⟩ := better
    rw [pick_eq_right ⟨measure, weight, w, weighs, hb, better⟩]
    refine ⟨before ++ a :: after, [], w, rfl, hb, fun value hv u hu => ?_, nofun⟩
    rcases List.mem_append.mp hv with old | later
    · exact not_ahead_trans (ahead value old u hu).asymm better
    · rcases List.mem_cons.mp later with rfl | new
      · cases weighs.symm.trans hu
        exact better
      · exact not_ahead_trans (behind value new u hu) better
  · have kept : x.pick a b = a := by
      refine pick_eq_left fun other p q ha hb further => ?_
      cases Scalar.weight?_unique weighs ha
      cases weighs.symm.trans ha
      exact better ⟨q, hb, further⟩
    rw [kept]
    refine ⟨before, after ++ [b], weight, by simp, weighs, ahead, fun value hv w hw further => ?_⟩
    rcases List.mem_append.mp hv with old | new
    · exact behind value old w hw further
    · cases List.mem_singleton.mp new
      exact better ⟨w, hw, further⟩

/-- More values are picked from one behind the other. -/
theorem IsFirstBest.foldl {values : List Scalar} (h : x.IsFirstBest measure values a)
    (rest : List Scalar) : x.IsFirstBest measure (values ++ rest) (rest.foldl x.pick a) := by
  induction rest generalizing values a with
  | nil => rwa [List.append_nil]
  | cons value rest ih =>
    have next := ih (h.pick value)
    rwa [List.append_assoc] at next

/-- A fold from the left goes to the first best value in the class of the first. -/
theorem isFirstBest_foldl {first : Scalar} (h : first.weight? measure = some p)
    (rest : List Scalar) : x.IsFirstBest measure (first :: rest) (rest.foldl x.pick first) :=
  (isFirstBest_singleton h).foldl rest

/-- A first value that is in no class stays. -/
theorem foldl_pick_of_no_class {first : Scalar} (h : ∀ measure, first.weight? measure = none)
    (rest : List Scalar) : rest.foldl x.pick first = first := by
  induction rest with
  | nil => rfl
  | cons value rest ih =>
    have kept : x.pick first value = first := pick_eq_left fun measure p q hp => by
      rw [h measure] at hp
      cases hp
    rw [List.foldl_cons, kept, ih]

theorem IsFirstBest.mem {values : List Scalar} (h : x.IsFirstBest measure values a) :
    a ∈ values := by
  obtain ⟨before, after, weight, rfl, _⟩ := h
  simp

theorem IsFirstBest.not_ahead {values : List Scalar} (h : x.IsFirstBest measure values a)
    (hb : b ∈ values) (hp : a.weight? measure = some p) (hq : b.weight? measure = some q) :
    ¬x.Ahead q p := by
  obtain ⟨before, after, weight, rfl, weighs, ahead, behind⟩ := h
  cases weighs.symm.trans hp
  rcases List.mem_append.mp hb with old | later
  · exact (ahead b old q hq).asymm
  · rcases List.mem_cons.mp later with rfl | new
    · cases hp.symm.trans hq
      exact fun self => self.asymm self
    · exact behind b new q hq

/-- The same values in another order have first bests of the same weight. -/
theorem IsFirstBest.weight?_perm {values others : List Scalar} (perm : values.Perm others)
    (h : x.IsFirstBest measure values a) (h' : x.IsFirstBest measure others b) :
    a.weight? measure = b.weight? measure := by
  obtain ⟨_, _, p, _, hp, _⟩ := id h
  obtain ⟨_, _, q, _, hq, _⟩ := id h'
  rw [hp, hq, eq_of_not_ahead (h'.not_ahead (perm.mem_iff.mp h.mem) hq hp)
    (h.not_ahead (perm.mem_iff.mpr h'.mem) hp hq)]

end Extreme

/-- The comparator orders three classes that share no value, each by weight: it gives both values
in their order, or the first one twice. What a fold of it gives is the first best value in the class
of the first, and weighs the same for every order of values of one class. -/
theorem comparator_orders_classes :
    (∀ (a : Tree) measure other p q, a.weight? measure = some p → a.weight? other = some q →
        measure = other) ∧
      (∀ (a b : Tree) measure p q, a.weight? measure = some p → b.weight? measure = some q →
        (a.larger b, a.smaller b) = if p < q then (b, a) else if q < p then (a, b) else (a, a)) ∧
      (∀ a b : Tree, (∀ measure, a.weight? measure = none ∨ b.weight? measure = none) →
        (a.larger b, a.smaller b) = (a, a)) ∧
      ∀ (x : Extreme) (first : Scalar) (rest : List Scalar),
        (∀ measure p, first.weight? measure = some p →
          x.IsFirstBest measure (first :: rest) (rest.foldl x.pick first)) ∧
        ((∀ measure, first.weight? measure = none) → rest.foldl x.pick first = first) ∧
        ∀ first' rest' measure, (first :: rest).Perm (first' :: rest') →
          (∀ value ∈ first :: rest, (value.weight? measure).isSome) →
          (rest.foldl x.pick first).weight? measure =
            (rest'.foldl x.pick first').weight? measure := by
  refine ⟨?_, fun a b measure p q => Tree.compare_of_weights, fun a b => Tree.compare_of_apart,
    fun x first rest => ⟨?_, ?_, ?_⟩⟩
  · intro a measure other p q hp hq
    obtain ⟨s, rfl, hp⟩ := Tree.weight?_eq_some.mp hp
    exact Scalar.weight?_unique hp hq
  · exact fun measure p weighs => Extreme.isFirstBest_foldl weighs rest
  · exact fun none => Extreme.foldl_pick_of_no_class none rest
  · intro first' rest' measure perm all
    obtain ⟨p, hp⟩ := Option.isSome_iff_exists.mp (all first List.mem_cons_self)
    obtain ⟨q, hq⟩ := Option.isSome_iff_exists.mp
      (all first' (perm.mem_iff.mpr List.mem_cons_self))
    exact (Extreme.isFirstBest_foldl hp rest).weight?_perm perm (Extreme.isFirstBest_foldl hq rest')

theorem comparator_orders_classes_of_sizes :
    (∀ other q, (Tree.text "small").weight? other = some q → Measure.profile = other) ∧
      ((Tree.text "500m").larger (.int 2), (Tree.text "500m").smaller (.int 2)) =
        (Tree.int 2, Tree.text "500m") ∧
      ((Tree.text "small").larger (.int 2), (Tree.text "small").smaller (.int 2)) =
        (Tree.text "small", Tree.text "small") ∧
      Extreme.max.IsFirstBest .size [.text "500m", .int 2, .text "small", .text "2000m"]
        (.int 2) ∧
      [Scalar.text "500m", .int 2].foldl Extreme.max.pick .null = .null ∧
      ([Scalar.int 2, .int 3].foldl Extreme.min.pick (.int 4)).weight? .size =
        ([Scalar.int 4, .int 3].foldl Extreme.min.pick (.int 2)).weight? .size := by
  obtain ⟨disjoint, ordered, unordered, folded⟩ := comparator_orders_classes
  have read : Quantity.read? "500m" = some ⟨5, -1, by decide⟩ ∧
      [Scalar.int 2, .text "small", .text "2000m"].foldl Extreme.max.pick (.text "500m") =
        .int 2 := by decide +kernel
  have small : (Tree.text "small").weight? .profile = some 1 := by
    have position : profileRank? "small" = some 1 := by decide
    simp [Tree.weight?, Scalar.weight?, Scalar.profileRank?, position]
  have milli : (Scalar.text "500m").weight? .size = some (1 / 2) := by
    simp [Scalar.weight?, Scalar.quantity?, read.1, Quantity.value, Quantity.scaled]
    norm_num
  have whole : ∀ n : Int, (Scalar.int n).weight? .size = some (n : ℚ) := fun n => by
    simp [Scalar.weight?, Scalar.quantity?]
  refine ⟨fun other q => disjoint _ _ other 1 q small, ?_, ?_, ?_, ?_, ?_⟩
  · rw [ordered (.text "500m") (.int 2) .size (1 / 2) 2 milli (whole 2), if_pos (by norm_num)]
  · refine unordered _ _ fun measure => ?_
    cases measure with
    | flag => exact .inl rfl
    | profile => exact .inr rfl
    | size =>
      refine .inl (Option.eq_none_iff_forall_ne_some.mpr fun q weighs => ?_)
      cases disjoint _ _ _ _ _ small weighs
  · have best := (folded .max (.text "500m") [.int 2, .text "small", .text "2000m"]).1 .size _ milli
    rwa [read.2] at best
  · refine (folded .max .null [.text "500m", .int 2]).2.1 fun measure => ?_
    cases measure <;> rfl
  · refine (folded .min (.int 4) [.int 2, .int 3]).2.2 _ _ .size (by decide) fun value hv => ?_
    simp only [List.mem_cons, List.not_mem_nil, or_false] at hv
    rcases hv with rfl | rfl | rfl <;> rw [whole] <;> rfl

end TenantSizing
