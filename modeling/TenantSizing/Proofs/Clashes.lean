import Mathlib.Data.List.Nodup
import TenantSizing.Notice
import TenantSizing.Proofs.Places

namespace TenantSizing

namespace Tree

variable {a b x y : Tree} {path rest : Path} {step : Step} {expected found : Kind} {clash : Clash}

/-- A path leads through both trees abreast to something of two kinds. -/
structure Clashing (path : Path) (expected found : Kind) (a b : Tree) : Prop where
  abreast : Abreast path a b
  first : ∃ x, a.at? path = some x ∧ x ≠ .null ∧ x.kind = expected
  second : ∃ y, b.at? path = some y ∧ y ≠ .null ∧ y.kind = found
  differ : expected ≠ found

theorem clashing_nil : Clashing [] expected found a b ↔
    a ≠ .null ∧ b ≠ .null ∧ a.kind = expected ∧ b.kind = found ∧ expected ≠ found := by
  constructor
  · rintro ⟨-, ⟨x, hx, first, rfl⟩, ⟨y, hy, second, rfl⟩, differ⟩
    cases hx
    cases hy
    exact ⟨first, second, rfl, rfl, differ⟩
  · rintro ⟨first, second, hk, hl, differ⟩
    exact ⟨abreast_nil, ⟨a, rfl, first, hk⟩, ⟨b, rfl, second, hl⟩, differ⟩

theorem clashing_cons : Clashing (step :: path) expected found a b ↔
    a.kind = b.kind ∧ a.kind ≠ .scalar ∧ ∃ x y, a.child? step = some x ∧
      b.child? step = some y ∧ Clashing path expected found x y := by
  constructor
  · rintro ⟨abreast, ⟨v, hv, first, hk⟩, ⟨w, hw, second, hl⟩, differ⟩
    obtain ⟨kinds, container, deeper⟩ := abreast_cons.mp abreast
    obtain ⟨x, hx, hv⟩ := Option.bind_eq_some_iff.mp (at?_cons a step path ▸ hv)
    obtain ⟨y, hy, hw⟩ := Option.bind_eq_some_iff.mp (at?_cons b step path ▸ hw)
    refine ⟨kinds, container, x, y, hx, hy, ?_, ⟨v, hv, first, hk⟩, ⟨w, hw, second, hl⟩, differ⟩
    rcases deeper with rfl | ⟨x', y', hx', hy', deeper⟩
    · exact abreast_nil
    · rw [hx] at hx'
      rw [hy] at hy'
      cases hx'
      cases hy'
      exact deeper
  · rintro ⟨kinds, container, x, y, hx, hy, abreast, ⟨v, hv, first, hk⟩, ⟨w, hw, second, hl⟩,
      differ⟩
    refine ⟨abreast_cons.mpr ⟨kinds, container, .inr ⟨x, y, hx, hy, abreast⟩⟩,
      ⟨v, ?_, first, hk⟩, ⟨w, ?_, second, hl⟩, differ⟩
    · rw [at?_cons, hx, Option.bind_some, hv]
    · rw [at?_cons, hy, Option.bind_some, hw]

theorem not_clashing_of_same (h : a.same b = true) : ¬Clashing path expected found a b := by
  induction path generalizing a b with
  | nil =>
    intro hc
    obtain ⟨-, -, rfl, rfl, differ⟩ := clashing_nil.mp hc
    exact differ (same_kind h)
  | cons step path ih =>
    intro hc
    obtain ⟨-, -, x, y, hx, hy, deeper⟩ := clashing_cons.mp hc
    have children := same_child h step
    rw [hx, hy] at children
    cases children with
    | some same => exact ih same deeper

theorem not_clashing_of_scalar (hs : a.kind = .scalar ∨ b.kind = .scalar)
    (he : a = .null ∨ b = .null ∨ a.kind = b.kind) : ¬Clashing path expected found a b := by
  intro hc
  cases path with
  | nil =>
    obtain ⟨first, second, rfl, rfl, differ⟩ := clashing_nil.mp hc
    rcases he with he | he | he
    · exact first he
    · exact second he
    · exact differ he
  | cons step path =>
    obtain ⟨kinds, container, -⟩ := clashing_cons.mp hc
    rcases hs with hs | hs
    · exact container hs
    · exact container (kinds.trans hs)

/-- A function that goes down two trees step by step and reports where they are of two kinds. It may
skip trees that are the same, and it may meet the children of containers in any order. -/
structure Reporting (g : Path → Tree → Tree → List Clash) : Prop where
  same : ∀ path a b, a.same b = true → g path a b = []
  null_left : ∀ path b, g path .null b = []
  null_right : ∀ path a, g path a .null = []
  scalars : ∀ path a b, g path (.scalar a) (.scalar b) = []
  clash : ∀ path a b, a ≠ .null → b ≠ .null → a.kind ≠ b.kind →
    g path a b = [⟨path, a.kind, b.kind⟩]
  children : ∀ path a b, a.kind = b.kind → a.kind ≠ .scalar → a.same b = false →
    (Keyed.keys a.entries).Nodup → (Keyed.keys b.entries).Nodup →
    ∃ steps : List Step, steps.Nodup ∧
      (∀ step x y, a.child? step = some x → b.child? step = some y → step ∈ steps) ∧
      g path a b = steps.flatMap fun step =>
        g (path ++ [step]) ((a.child? step).getD .null) ((b.child? step).getD .null)

theorem regular_child_or_null {pass : Scalar → Bool} (h : a.regular pass = true)
    (hp : pass .null = true) (step : Step) : ((a.child? step).getD .null).regular pass = true := by
  cases hx : a.child? step with
  | none => exact hp
  | some x => exact regular_child h hx

namespace Reporting

variable {g : Path → Tree → Tree → List Clash} {pass : Scalar → Bool} (h : Reporting g)

include h

/-- What is reported is what clashes, by induction on the first tree. -/
theorem mem_iff (ha : a.regular pass = true) (hb : b.regular pass = true) :
    clash ∈ g path a b ↔
      ∃ rest, clash.path = path ++ rest ∧ Clashing rest clash.expected clash.found a b := by
  induction a using induct_children generalizing path b with
  | h a ih =>
    have silent : g path a b = [] → (∀ rest, ¬Clashing rest clash.expected clash.found a b) →
        (clash ∈ g path a b ↔
          ∃ rest, clash.path = path ++ rest ∧ Clashing rest clash.expected clash.found a b) := by
      intro nil none
      rw [nil]
      exact ⟨fun hc => absurd hc List.not_mem_nil, fun ⟨rest, _, hc⟩ => absurd hc (none rest)⟩
    cases meeting a b with
    | null_left =>
      exact silent (h.null_left _ _) fun _ => not_clashing_of_scalar (.inl rfl) (.inl rfl)
    | null_right =>
      exact silent (h.null_right _ _) fun _ => not_clashing_of_scalar (.inr rfl) (.inr (.inl rfl))
    | scalars =>
      exact silent (h.scalars _ _ _) fun _ => not_clashing_of_scalar (.inl rfl) (.inr (.inr rfl))
    | clash hn hm hk =>
      rw [h.clash path a b hn hm hk, List.mem_singleton]
      constructor
      · rintro rfl
        exact ⟨[], (List.append_nil _).symm, clashing_nil.mpr ⟨hn, hm, rfl, rfl, hk⟩⟩
      · rintro ⟨rest, he, clashing⟩
        cases rest with
        | nil =>
          obtain ⟨-, -, first, second, -⟩ := clashing_nil.mp clashing
          rw [first, second, ← (he.trans (List.append_nil path))]
        | cons step rest => exact absurd (clashing_cons.mp clashing).1 hk
    | containers hk hc =>
      by_cases hs : a.same b = true
      · exact silent (h.same _ _ _ hs) fun _ => not_clashing_of_same hs
      obtain ⟨steps, -, shared, eq⟩ := h.children path a b hk hc (by simpa using hs)
        (nodup_entries ha) (nodup_entries hb)
      rw [eq, List.mem_flatMap]
      constructor
      · rintro ⟨step, -, hg⟩
        -- Nothing clashes with a child that is missing.
        cases hx : a.child? step with
        | none =>
          rw [hx, Option.getD_none, h.null_left] at hg
          cases hg
        | some x =>
          cases hy : b.child? step with
          | none =>
            rw [hy, Option.getD_none, h.null_right] at hg
            cases hg
          | some y =>
            rw [hx, hy] at hg
            obtain ⟨rest, he, deeper⟩ := (ih step x hx (regular_child ha hx)
              (regular_child hb hy)).mp hg
            exact ⟨step :: rest, by simpa using he,
              clashing_cons.mpr ⟨hk, hc, x, y, hx, hy, deeper⟩⟩
      · rintro ⟨rest, he, clashing⟩
        cases rest with
        | nil =>
          obtain ⟨-, -, first, second, differ⟩ := clashing_nil.mp clashing
          exact absurd (first.symm.trans (hk.trans second)) differ
        | cons step rest =>
          obtain ⟨-, -, x, y, hx, hy, deeper⟩ := clashing_cons.mp clashing
          refine ⟨step, shared step x y hx hy, ?_⟩
          rw [hx, hy]
          exact (ih step x hx (regular_child ha hx) (regular_child hb hy)).mpr
            ⟨rest, by simpa using he, deeper⟩

theorem nodup (hp : pass .null = true) (ha : a.regular pass = true) (hb : b.regular pass = true) :
    ((g path a b).map Clash.path).Nodup := by
  induction a using induct_children generalizing path b with
  | h a ih =>
    have silent : g path a b = [] → ((g path a b).map Clash.path).Nodup := by
      intro nil
      rw [nil]
      exact .nil
    cases meeting a b with
    | null_left => exact silent (h.null_left _ _)
    | null_right => exact silent (h.null_right _ _)
    | scalars => exact silent (h.scalars _ _ _)
    | clash hn hm hk =>
      rw [h.clash path a b hn hm hk]
      exact List.nodup_singleton _
    | containers hk hc =>
      by_cases hs : a.same b = true
      · exact silent (h.same _ _ _ hs)
      obtain ⟨steps, apart, -, eq⟩ := h.children path a b hk hc (by simpa using hs)
        (nodup_entries ha) (nodup_entries hb)
      rw [eq, List.map_flatMap, List.nodup_flatMap]
      refine ⟨fun step _ => ?_, apart.imp fun {s t} differ p hs ht => ?_⟩
      · cases hx : a.child? step with
        | none =>
          rw [Option.getD_none, h.null_left]
          exact .nil
        | some x => exact ih step x hx (regular_child ha hx) (regular_child_or_null hb hp step)
      · -- What is reported from below a step has that step in its path.
        have below : ∀ step place, place ∈ (g (path ++ [step]) ((a.child? step).getD .null)
            ((b.child? step).getD .null)).map Clash.path →
              ∃ rest, place = path ++ step :: rest := by
          intro step place hr
          obtain ⟨report, reported, rfl⟩ := List.mem_map.mp hr
          obtain ⟨rest, he, -⟩ := (h.mem_iff (regular_child_or_null ha hp step)
            (regular_child_or_null hb hp step)).mp reported
          exact ⟨rest, by simpa using he⟩
        obtain ⟨_, rfl⟩ := below s p hs
        obtain ⟨_, he⟩ := below t _ ht
        exact differ (List.cons.inj (List.append_cancel_left he)).1

end Reporting

/-- The notices are warnings. They name each place where the two trees clash, and what is there on
both sides, exactly once; they name no other place. -/
structure WarnsOfClashes (notices : List Notice) (a b : Tree) : Prop where
  level : ∀ notice ∈ notices, notice.level = .warning
  exact : ∃ clashes : List Clash, notices = clashes.map .clash ∧ (clashes.map Clash.path).Nodup ∧
    ∀ clash, clash ∈ clashes ↔ Clashing clash.path clash.expected clash.found a b

theorem Reporting.warns {g : Path → Tree → Tree → List Clash} {pass : Scalar → Bool}
    (h : Reporting g) (hp : pass .null = true) (ha : a.regular pass = true)
    (hb : b.regular pass = true) : WarnsOfClashes ((g [] a b).map .clash) a b where
  level notice hn := by
    obtain ⟨clash, -, rfl⟩ := List.mem_map.mp hn
    rfl
  exact := by
    refine ⟨_, rfl, h.nodup hp ha hb, fun clash => ?_⟩
    rw [h.mem_iff ha hb]
    constructor
    · rintro ⟨rest, he, clashing⟩
      rw [he]
      exact clashing
    · exact fun clashing => ⟨_, rfl, clashing⟩

theorem itemsClashes_eq (path : Path) (g : Path → Tree → Tree → List Clash)
    (loop : Nat → List Tree → List Tree → List Clash)
    (nil_left : ∀ position ys, loop position [] ys = [])
    (nil_right : ∀ position xs, loop position xs [] = [])
    (cons : ∀ position x xs y ys, loop position (x :: xs) (y :: ys) =
      g (path ++ [.index position]) x y ++ loop (position + 1) xs ys)
    (position : Nat) (xs ys : List Tree) :
    loop position xs ys = (List.range (min xs.length ys.length)).flatMap fun i =>
      g (path ++ [.index (position + i)]) (xs[i]?.getD .null) (ys[i]?.getD .null) := by
  induction xs generalizing position ys with
  | nil => simp [nil_left]
  | cons x xs ih =>
    cases ys with
    | nil => simp [nil_right]
    | cons y ys =>
      have shift : ∀ i, position + 1 + i = position + (i + 1) := by omega
      rw [cons, ih, List.length_cons, List.length_cons, Nat.succ_min_succ, List.range_succ_eq_map,
        List.flatMap_cons, List.flatMap_map]
      simp only [shift]
      rfl

theorem entriesClashes_eq {entries : Entries} (hn : (Keyed.keys entries).Nodup)
    (g : Step → Tree → List Clash) :
    (entries.flatMap fun entry => g (.key entry.1) entry.2) =
      ((Keyed.keys entries).map Step.key).flatMap fun step =>
        g step (((Tree.map entries).child? step).getD .null) := by
  rw [List.flatMap_map, Keyed.keys, List.flatMap_map]
  refine List.flatMap_congr fun entry he => ?_
  rw [child?, Keyed.lookup_of_mem hn he, Option.getD_some]

theorem nodup_keySteps {entries : Entries} (hn : (Keyed.keys entries).Nodup) :
    ((Keyed.keys entries).map Step.key).Nodup :=
  hn.map fun _ _ => Step.key.inj

theorem mem_keySteps {entries : Entries} (h : (Tree.map entries).child? step = some x) :
    step ∈ (Keyed.keys entries).map Step.key := by
  cases step with
  | index i => cases h
  | key name =>
    exact List.mem_map.mpr ⟨name, List.mem_map.mpr ⟨_, Keyed.mem_of_lookup h, rfl⟩, rfl⟩

theorem nodup_indexSteps (n : Nat) : ((List.range n).map Step.index).Nodup :=
  List.nodup_range.map fun _ _ => Step.index.inj

theorem mem_indexSteps {xs ys : List Tree} (hx : (Tree.list xs).child? step = some x)
    (hy : (Tree.list ys).child? step = some y) :
    step ∈ (List.range (min xs.length ys.length)).map Step.index := by
  cases step with
  | key name => cases hx
  | index i =>
    have left := (List.getElem?_eq_some_iff.mp hx).1
    have right := (List.getElem?_eq_some_iff.mp hy).1
    exact List.mem_map.mpr ⟨i, List.mem_range.mpr (by omega), rfl⟩

theorem mergeEntriesClashes_eq (cs rs : Entries) :
    mergeEntriesClashes path cs rs = cs.flatMap fun entry =>
      mergeClashes (path ++ [.key entry.1]) entry.2 ((rs.lookup entry.1).getD .null) := by
  induction cs with
  | nil => rfl
  | cons entry rest ih => rw [mergeEntriesClashes, ih, List.flatMap_cons]

theorem mergeItemsClashes_eq (xs ys : List Tree) :
    mergeItemsClashes path 0 xs ys =
      (List.range (min xs.length ys.length)).flatMap fun i =>
        mergeClashes (path ++ [.index i]) (xs[i]?.getD .null) (ys[i]?.getD .null) := by
  have loop := itemsClashes_eq path mergeClashes (mergeItemsClashes path)
    (fun _ _ => rfl) (fun _ xs => by cases xs <;> rfl) (fun _ _ _ _ _ => rfl) 0 xs ys
  simpa only [Nat.zero_add] using loop

theorem mergeClashes_of_same (h : a.same b = true) : mergeClashes path a b = [] := by
  unfold mergeClashes
  rw [if_pos h]

theorem mergeClashes_maps {cs rs : Entries} (h : (Tree.map cs).same (.map rs) = false) :
    mergeClashes path (.map cs) (.map rs) = mergeEntriesClashes path cs rs := by
  unfold mergeClashes
  rw [h]
  rfl

theorem mergeClashes_lists {xs ys : List Tree} (h : (Tree.list xs).same (.list ys) = false) :
    mergeClashes path (.list xs) (.list ys) = mergeItemsClashes path 0 xs ys := by
  unfold mergeClashes
  rw [h]
  rfl

/-- A merge of a request reports the clashes of the two trees. -/
theorem reporting_mergeClashes : Reporting mergeClashes where
  same _ _ _ := mergeClashes_of_same
  null_left path b := by
    unfold mergeClashes
    split
    · rfl
    · rcases b with (_ | _ | _ | _ | _) | _ | _ <;> rfl
  null_right path a := by
    unfold mergeClashes
    split
    · rfl
    · rfl
  scalars path s t := by
    unfold mergeClashes
    split
    · rfl
    · cases t <;> cases s <;> rfl
  clash path a b ha hb hk := by
    have differ : ¬a.same b = true := fun hs => hk (same_kind hs)
    unfold mergeClashes
    rw [if_neg differ]
    split <;> simp_all [Tree.kind]
  children path a b hk hc hs ha hb := by
    cases a with
    | scalar s => exact absurd rfl hc
    | map cs =>
      obtain ⟨rs, rfl⟩ := isMap_iff.mp (isMap_iff_kind.mpr hk.symm)
      refine ⟨_, nodup_keySteps ha, fun step x y hx _ => mem_keySteps hx, ?_⟩
      rw [mergeClashes_maps hs, mergeEntriesClashes_eq]
      exact entriesClashes_eq ha fun step value =>
        mergeClashes (path ++ [step]) value (((Tree.map rs).child? step).getD .null)
    | list xs =>
      obtain ⟨ys, rfl⟩ := isList_iff.mp (isList_iff_kind.mpr hk.symm)
      refine ⟨_, nodup_indexSteps _, fun step x y => mem_indexSteps, ?_⟩
      rw [mergeClashes_lists hs, mergeItemsClashes_eq, List.flatMap_map]
      rfl

theorem extremeEntriesClashes_eq (ss cs : Entries) :
    extremeEntriesClashes path ss cs = ss.flatMap fun entry =>
      extremeClashes (path ++ [.key entry.1]) ((cs.lookup entry.1).getD .null) entry.2 := by
  induction ss with
  | nil => rfl
  | cons entry rest ih => rw [extremeEntriesClashes, ih, List.flatMap_cons]

theorem extremeItemsClashes_eq (xs ys : List Tree) :
    extremeItemsClashes path 0 ys xs =
      (List.range (min xs.length ys.length)).flatMap fun i =>
        extremeClashes (path ++ [.index i]) (xs[i]?.getD .null) (ys[i]?.getD .null) := by
  have loop := itemsClashes_eq path extremeClashes
    (fun position xs ys => extremeItemsClashes path position ys xs)
    (fun _ ys => by cases ys <;> rfl) (fun _ _ => rfl) (fun _ _ _ _ _ => rfl) 0 xs ys
  simpa only [Nat.zero_add] using loop

theorem extremeClashes_of_same (h : a.same b = true) : extremeClashes path a b = [] := by
  unfold extremeClashes
  rw [if_pos h]

theorem extremeClashes_maps {cs ss : Entries} (h : (Tree.map cs).same (.map ss) = false) :
    extremeClashes path (.map cs) (.map ss) = extremeEntriesClashes path ss cs := by
  unfold extremeClashes
  rw [h]
  rfl

theorem extremeClashes_lists {xs ys : List Tree} (h : (Tree.list xs).same (.list ys) = false) :
    extremeClashes path (.list xs) (.list ys) = extremeItemsClashes path 0 ys xs := by
  unfold extremeClashes
  rw [h]
  rfl

/-- So does a merge of a summary, although it goes by the order of the summary. -/
theorem reporting_extremeClashes : Reporting extremeClashes where
  same _ _ _ := extremeClashes_of_same
  null_left path b := by
    unfold extremeClashes
    split
    · rfl
    · rcases b with (_ | _ | _ | _ | _) | _ | _ <;> rfl
  null_right path a := by
    unfold extremeClashes
    split
    · rfl
    · rfl
  scalars path s t := by
    unfold extremeClashes
    split
    · rfl
    · cases t <;> cases s <;> rfl
  clash path a b ha hb hk := by
    have differ : ¬a.same b = true := fun hs => hk (same_kind hs)
    unfold extremeClashes
    rw [if_neg differ]
    split <;> simp_all [Tree.kind]
  children path a b hk hc hs ha hb := by
    cases a with
    | scalar s => exact absurd rfl hc
    | map cs =>
      obtain ⟨ss, rfl⟩ := isMap_iff.mp (isMap_iff_kind.mpr hk.symm)
      refine ⟨_, nodup_keySteps hb, fun step x y _ hy => mem_keySteps hy, ?_⟩
      rw [extremeClashes_maps hs, extremeEntriesClashes_eq]
      exact entriesClashes_eq hb fun step value =>
        extremeClashes (path ++ [step]) (((Tree.map cs).child? step).getD .null) value
    | list xs =>
      obtain ⟨ys, rfl⟩ := isList_iff.mp (isList_iff_kind.mpr hk.symm)
      refine ⟨_, nodup_indexSteps _, fun step x y => mem_indexSteps, ?_⟩
      rw [extremeClashes_lists hs, extremeItemsClashes_eq, List.flatMap_map]
      rfl

end Tree

end TenantSizing
