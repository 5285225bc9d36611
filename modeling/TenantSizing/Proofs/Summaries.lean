import TenantSizing.Proofs.Trees
import TenantSizing.Reconcile.Summary

namespace TenantSizing

namespace Keyed

variable {α : Type}

def valuesAt (entries : Keyed α) (key : String) : List α :=
  (entries.filter fun entry => entry.1 = key).map Prod.snd

theorem mem_valuesAt {entries : Keyed α} {key : String} {value : α} :
    value ∈ valuesAt entries key ↔ (key, value) ∈ entries := by
  simp [valuesAt]

/-- Where no key is there twice, a key has at most one value. -/
theorem valuesAt_eq {entries : Keyed α} (hn : (keys entries).Nodup) (key : String) :
    valuesAt entries key = (entries.lookup key).toList := by
  induction entries with
  | nil => rfl
  | cons entry rest ih =>
    obtain ⟨k, v⟩ := entry
    simp only [keys, List.map_cons, List.nodup_cons] at hn
    have tail := ih hn.2
    simp only [valuesAt] at tail ⊢
    by_cases hk : k = key
    · subst hk
      have absent : rest.lookup k = none := by
        cases hl : rest.lookup k with
        | none => rfl
        | some value => exact absurd (List.mem_map.mpr ⟨_, mem_of_lookup hl, rfl⟩) hn.1
      rw [absent] at tail
      simp [tail]
    · simp [hk, tail, Ne.symm hk]

end Keyed

namespace Report

variable {σ τ β : Type} {step : σ → β → Report σ}

/-- What each step preserves, a fold that ends well preserves. -/
theorem foldlM_invariant {P : σ → Prop} {items : List β} {start result : σ}
    (preserved : ∀ item ∈ items, ∀ before after, P before →
      (step before item).outcome = .ok after → P after)
    (hs : P start) (h : (items.foldlM step start).outcome = .ok result) : P result := by
  induction items generalizing start with
  | nil =>
    cases h
    exact hs
  | cons item rest ih =>
    rw [List.foldlM_cons, outcome_bind] at h
    cases hm : (step start item).outcome with
    | error failure =>
      rw [hm] at h
      cases h
    | ok next =>
      rw [hm] at h
      exact ih (fun other ho => preserved other (by simp [ho]))
        (preserved item (by simp) start next hs hm) h

/-- If each step that ends well acts on a view of the state as a plain function does, a whole fold
acts on it as the fold of that function. -/
theorem foldlM_view (view : σ → τ) (act : τ → β → τ) {items : List β}
    (seen : ∀ before, ∀ item ∈ items, ∀ after, (step before item).outcome = .ok after →
      view after = act (view before) item)
    {start result : σ} (h : (items.foldlM step start).outcome = .ok result) :
    view result = items.foldl act (view start) := by
  induction items generalizing start with
  | nil =>
    cases h
    rfl
  | cons item rest ih =>
    rw [List.foldlM_cons, outcome_bind] at h
    cases hm : (step start item).outcome with
    | error failure =>
      rw [hm] at h
      cases h
    | ok next =>
      rw [hm] at h
      rw [List.foldl_cons, ← seen start item (by simp) next hm]
      exact ih (fun before other ho => seen before other (by simp [ho])) h

end Report

namespace Tree

theorem text_agrees {name : String} {tree : Tree} :
    (Tree.text name).agrees tree = true ↔ tree = .text name := by
  cases tree with
  | scalar s =>
    cases s <;> simp [agrees, sameBy, Scalar.agrees, Scalar.boolAsInt, Scalar.same, eq_comm]
  | list xs => simp [agrees, sameBy]
  | map xs => simp [agrees, sameBy]

end Tree

namespace Services

/-- The first entry of a name, null if there is none. -/
def entry (items : List Tree) (name : String) : Tree :=
  (find? items (.text name)).getD .null

/-- What the entry of a name holds of a kind. -/
def kindOf (items : List Tree) (name kind : String) : Tree :=
  (entry items name).follow ["spec", kind]

def resourcesOf (items : List Tree) (name : String) : List Tree :=
  ((entry items name).get "resources").items

theorem isNamed_of_text {item name : Tree} {other : String} (h : item.get "name" = .text other) :
    isNamed name item = true ↔ name = .text other := by
  have hm : item.isMap = true := by
    cases item <;> simp_all [Tree.get, Tree.entries, Tree.isMap]
  rw [isNamed, hm, Bool.true_and, h, Tree.text_agrees]

theorem find?_cons (item : Tree) (rest : List Tree) (name : Tree) :
    find? (item :: rest) name =
      if isNamed name item = true then some item else find? rest name := by
  rw [find?, List.find?_cons]
  cases isNamed name item <;> rfl

theorem isNamed_congr {a b : Tree} (h : a.get "name" = b.get "name") (name : String) :
    isNamed (.text name) a = isNamed (.text name) b := by
  rw [Bool.eq_iff_iff, isNamed_text, isNamed_text, h]

theorem isNamed_insert {field : String} (hf : field ≠ "name") (item value : Tree) (name : String) :
    isNamed (.text name) (.map (Keyed.insert item.entries field value)) =
      isNamed (.text name) item := by
  apply isNamed_congr
  rw [Tree.get_insert, if_neg (Ne.symm hf)]
  rfl

theorem find?_set {items : List Tree} {name value : Tree} {field : String} {stub : Entries}
    (hf : field ≠ "name") (hs : (Tree.map stub).get "name" = name) (other : String) :
    find? (set items name field value stub) (.text other) =
      if name = .text other then
        some (match find? items (.text other) with
          | some item => .map (Keyed.insert item.entries field value)
          | none => .map stub)
      else find? items (.text other) := by
  induction items with
  | nil =>
    have same : isNamed (.text other) (.map stub) = true ↔ name = .text other := by
      rw [isNamed_text, hs]
    simp only [set, find?_cons, same]
    rfl
  | cons item rest ih =>
    by_cases hi : isNamed name item = true
    · have same : isNamed (.text other) item = true ↔ name = .text other :=
        ⟨fun hb => (isNamed_of_text (isNamed_text.mp hb)).mp hi, fun hn => hn ▸ hi⟩
      rw [set, if_pos hi, find?_cons, find?_cons, isNamed_insert hf]
      by_cases hn : name = .text other
      · rw [if_pos hn, if_pos (same.mpr hn), if_pos (same.mpr hn)]
      · rw [if_neg hn, if_neg (mt same.mp hn), if_neg (mt same.mp hn)]
    · rw [set, if_neg hi, find?_cons, find?_cons]
      by_cases hb : isNamed (.text other) item = true
      · have hn : name ≠ .text other := fun he => hi (he ▸ hb)
        rw [if_pos hb, if_pos hb, if_neg hn]
      · rw [if_neg hb, if_neg hb]
        exact ih

theorem find?_setSpec (items : List Tree) (name spec : Tree) (other : String) :
    find? (setSpec items name spec) (.text other) =
      if name = .text other then
        some (match find? items (.text other) with
          | some item => .map (Keyed.insert item.entries "spec" spec)
          | none => .map [("name", name), ("spec", spec), ("resources", .list [])])
      else find? items (.text other) := by
  unfold setSpec
  apply find?_set
  · decide
  · rfl

theorem find?_setResources (items : List Tree) (name resources : Tree) (other : String) :
    find? (setResources items name resources) (.text other) =
      if name = .text other then
        some (match find? items (.text other) with
          | some item => .map (Keyed.insert item.entries "resources" resources)
          | none => .map [("name", name), ("spec", .map []), ("resources", resources)])
      else find? items (.text other) := by
  unfold setResources
  apply find?_set
  · decide
  · rfl

end Services

/-- Adds what is asked for of a kind to what is held of it. Without rules for the kind nothing is
added. -/
def Scope.sumInto (scope : Scope) (independent : Bool) (operand kind : String)
    (held wanted : Tree) : Tree :=
  match scope.rules.forKind? (.text operand) kind with
  | some rules =>
    (held.orElse (.map [])).filteredMerge Wish.policy rules false
      (scope.release independent (.text operand) kind wanted)
  | none => held

namespace Wish

variable (scope : Scope) (wish : Wish)

def into (summary : List Tree) : List Tree :=
  let held := (Services.find? summary wish.operand).getD (.map [])
  let spec := (wish.governedKinds scope).foldl foldKind (held.get "spec").entries
  let resources := (completeResources wish.resources).foldl (wish.foldResource scope)
    (held.get "resources").items
  Services.setResources (Services.setSpec summary wish.operand (.map spec)) wish.operand
    (.list resources)

theorem outcome_fold (summary : List Tree) :
    (wish.fold scope summary).outcome = .ok (wish.into scope summary) := by
  simp [fold, into, Except.bind]

variable {scope wish} {operand kind : String} {summary : List Tree}

theorem entry_into_of_ne (h : wish.operand ≠ .text operand) :
    Services.entry (wish.into scope summary) operand = Services.entry summary operand := by
  rw [Services.entry, into, Services.find?_setResources, if_neg h, Services.find?_setSpec,
    if_neg h, Services.entry]

/-- The entry of the operand holds the folded kinds and resources. -/
theorem entry_into (h : wish.operand = .text operand) :
    (Services.entry (wish.into scope summary) operand).get "spec" =
        .map ((wish.governedKinds scope).foldl foldKind
          ((Services.entry summary operand).get "spec").entries) ∧
      (Services.entry (wish.into scope summary) operand).get "resources" =
        .list ((completeResources wish.resources).foldl (wish.foldResource scope)
          (Services.resourcesOf summary operand)) := by
  have held : ∀ key, (((Services.find? summary (.text operand)).getD (.map [])).get key) =
      (Services.entry summary operand).get key := by
    intro key
    rw [Services.entry]
    cases Services.find? summary (.text operand) <;> rfl
  rw [Services.entry, into, Services.find?_setResources, if_pos h, Services.find?_setSpec,
    if_pos h, h, held, held, Services.resourcesOf]
  constructor
  · cases Services.find? summary (.text operand) <;>
      simp [Tree.get, Tree.entries, Keyed.lookup_insert]
  · simp [Tree.get_insert]

theorem lookup_foldKinds (kinds spec : Entries) :
    (((kinds.filterMap fun entry => (scope.rules.forKind? (.text operand) entry.1).map fun rules =>
        (entry.1, rules, scope.release wish.independent (.text operand) entry.1 entry.2)).foldl
          foldKind spec).lookup kind).getD .null =
      (Keyed.valuesAt kinds kind).foldl (scope.sumInto wish.independent operand kind)
        ((spec.lookup kind).getD .null) := by
  induction kinds generalizing spec with
  | nil => rfl
  | cons entry rest ih =>
    obtain ⟨k, wanted⟩ := entry
    by_cases hk : k = kind
    · subst hk
      cases hr : scope.rules.forKind? (.text operand) k with
      | none =>
        have tail := ih spec
        simp only [Keyed.valuesAt] at tail ⊢
        simpa [hr, Scope.sumInto] using tail
      | some rules =>
        have tail := ih (foldKind spec
          (k, rules, scope.release wish.independent (.text operand) k wanted))
        simp only [Keyed.valuesAt] at tail ⊢
        simpa [hr, Scope.sumInto, foldKind, heldKind, Keyed.lookup_insert] using tail
    · cases hr : scope.rules.forKind? (.text operand) k with
      | none =>
        have tail := ih spec
        simp only [Keyed.valuesAt] at tail ⊢
        simpa [hr, hk] using tail
      | some rules =>
        have tail := ih (foldKind spec
          (k, rules, scope.release wish.independent (.text operand) k wanted))
        simp only [Keyed.valuesAt] at tail ⊢
        simpa [hr, hk, foldKind, Keyed.lookup_insert, Ne.symm hk] using tail

/-- Folding a resource keeps what is held, adds it as far as it may be merged, or merges it into one
that is held. -/
theorem mem_foldResource {held : List Tree} {resource other : Tree}
    (h : other ∈ wish.foldResource scope held resource) :
    other ∈ held ∨ other = releasedResource wish.independent resource ∨
      ∃ before ∈ held, other = before.merge policy none
        (releasedResource wish.independent resource) := by
  unfold foldResource at h
  dsimp only at h
  split at h
  · obtain ⟨i, hi⟩ := List.mem_iff_getElem?.mp h
    rw [List.getElem?_modify, Option.map_eq_map, Option.map_eq_some_iff] at hi
    obtain ⟨before, hb, he⟩ := hi
    have hm := List.mem_of_getElem? hb
    split at he
    · exact .inr (.inr ⟨before, hm, he.symm⟩)
    · exact .inl (he ▸ hm)
  · rcases List.mem_append.mp h with h | h
    · exact .inl h
    · exact .inr (.inl (List.mem_singleton.mp h))

/-- What the entry of the operand holds of a kind behind a wish. -/
theorem kindOf_into (h : wish.operand = .text operand) :
    Services.kindOf (wish.into scope summary) operand kind =
      (Keyed.valuesAt wish.spec kind).foldl (scope.sumInto wish.independent operand kind)
        (Services.kindOf summary operand kind) := by
  rw [Services.kindOf, Tree.follow_cons, Tree.follow_cons, Tree.follow_nil, (entry_into h).1,
    Tree.get_map, governedKinds, h]
  exact lookup_foldKinds wish.spec _

end Wish

def asks (operand kind : String) (service : Tree) : List Tree :=
  if service.get "name" = .text operand then Keyed.valuesAt (service.get "spec").entries kind
  else []

/-- What contributions ask for of a kind of an operand, in turn. -/
def asked (operand kind : String) (contributions : List Contribution) : List Tree :=
  contributions.flatMap fun contribution => contribution.services.flatMap (asks operand kind)

variable {scope : Scope} {modes : Keyed String} {contributions : List Contribution}
  {summary : List Tree}

theorem foldService_ok {owner : String} {service : Tree} {before after : List Tree}
    (h : (foldService scope modes owner before service).outcome = .ok after) :
    ∃ mode, Mode.resolveFor modes (service.get "name") = .ok mode ∧
      after = Wish.into scope
        { operand := service.get "name", owner, independent := Mode.isIndependent mode
          spec := (service.get "spec").entries, resources := (service.get "resources").items }
        before := by
  rw [foldService, Report.outcome_bind, Report.outcome_ofExcept] at h
  cases hm : Mode.resolveFor modes (service.get "name") with
  | error failure =>
    rw [hm] at h
    cases h
  | ok mode =>
    rw [hm] at h
    refine ⟨mode, rfl, ?_⟩
    exact (Except.ok.inj ((Wish.outcome_fold _ _ _).symm.trans h)).symm

/-- A summary holds of each kind the fold of what is asked for it. -/
theorem kindOf_summarize (operand kind : String)
    (h : (summarize scope modes contributions).outcome = .ok summary) :
    Services.kindOf summary operand kind =
      (asked operand kind contributions).foldl
        (scope.sumInto (Mode.isIndependent (Mode.resolve Mode.fallback modes operand)) operand kind)
        .null := by
  have service : ∀ owner before service after,
      (foldService scope modes owner before service).outcome = .ok after →
      Services.kindOf after operand kind = (asks operand kind service).foldl
        (scope.sumInto (Mode.isIndependent (Mode.resolve Mode.fallback modes operand)) operand kind)
        (Services.kindOf before operand kind) := by
    intro owner before service after h
    obtain ⟨mode, hm, rfl⟩ := foldService_ok h
    by_cases hn : service.get "name" = .text operand
    · rw [hn] at hm
      have hm : mode = Mode.resolve Mode.fallback modes operand := (Except.ok.inj hm).symm
      rw [asks, if_pos hn, Wish.kindOf_into hn, hm]
    · rw [asks, if_neg hn, Services.kindOf, Wish.entry_into_of_ne hn]
      rfl
  have folded := Report.foldlM_view (fun items => Services.kindOf items operand kind)
    (fun held (contribution : Contribution) => contribution.services.foldl
      (fun held service => (asks operand kind service).foldl
        (scope.sumInto (Mode.isIndependent (Mode.resolve Mode.fallback modes operand)) operand kind)
        held) held)
    (fun before contribution _ after hc =>
      Report.foldlM_view (fun items => Services.kindOf items operand kind) _
        (fun before item _ => service contribution.key before item) hc) h
  rw [folded, asked, List.foldl_flatMap]
  congr 1
  funext held contribution
  rw [List.foldl_flatMap]

/-- What holds of every resource that is asked for of an operand, and of merges of such, holds of
the resources of a summary. -/
theorem resourcesOf_summarize {P : Tree → Prop} (operand : String)
    (wanted : ∀ contribution ∈ contributions, ∀ service ∈ contribution.services,
      ∀ resource ∈ (service.get "resources").items,
        P (releasedResource (Mode.isIndependent (Mode.resolve Mode.fallback modes operand))
          resource))
    (merged : ∀ a b, P a → P b → P (a.merge Wish.policy none b))
    (h : (summarize scope modes contributions).outcome = .ok summary) :
    ∀ resource ∈ Services.resourcesOf summary operand, P resource := by
  refine Report.foldlM_invariant
    (P := fun items => ∀ resource ∈ Services.resourcesOf items operand, P resource)
    ?_ (by simp [Services.resourcesOf, Services.entry, Services.find?, Tree.items]) h
  intro contribution hc before after hb hf
  refine Report.foldlM_invariant
    (P := fun items => ∀ resource ∈ Services.resourcesOf items operand, P resource) ?_ hb hf
  intro service hs before after hb ho
  obtain ⟨mode, hm, rfl⟩ := foldService_ok ho
  by_cases hn : service.get "name" = .text operand
  · rw [hn] at hm
    obtain rfl := Except.ok.inj hm
    rw [Services.resourcesOf, (Wish.entry_into hn).2]
    refine List.foldlRecOn (motive := fun items => ∀ resource ∈ items, P resource) _ _ hb ?_
    intro held hh resource hr other ho
    have asked := wanted contribution hc service hs resource (List.mem_filter.mp hr).1
    rcases Wish.mem_foldResource ho with ho | rfl | ⟨first, hf, rfl⟩
    · exact hh other ho
    · exact asked
    · exact merged _ _ (hh first hf) asked
  · rw [Services.resourcesOf, Wish.entry_into_of_ne hn]
    exact hb

end TenantSizing
