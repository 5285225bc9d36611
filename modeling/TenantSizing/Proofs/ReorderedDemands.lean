import TenantSizing.Proofs.LiveTenants
import TenantSizing.Proofs.ReorderedRequests
import TenantSizing.Proofs.Summaries

namespace TenantSizing

open TenantSizing.Tree

/-- What reordered trees offer one by one: related parts, the same failure, or nothing but texts. -/
theorem elements_reordered {a b : Tree} (h : Reordered a b) :
    Agree (List.Forall₂ Reordered) a.elements? b.elements? ∨
      ∃ us vs, a.elements? = .ok us ∧ b.elements? = .ok vs ∧ us ≠ [] ∧ vs ≠ [] ∧
        (∀ part ∈ us, part.isMap = false) ∧ ∀ part ∈ vs, part.isMap = false := by
  obtain ⟨alike, first, second⟩ := h
  cases alike with
  | scalars value =>
    left
    cases value with
    | null | bool _ | int _ | float _ => exact .fails _
    | text name => exact .ok (List.forall₂_same.mpr fun part hp => .refl (by
        obtain ⟨c, _, rfl⟩ := List.mem_map.mp hp
        rfl))
  | lists length items =>
    exact .inl (.ok (reordered_list_iff.mp ⟨.lists length items, first, second⟩))
  | maps keys values =>
    rename_i xs ys
    have truthy : (Tree.map xs).truthy = (Tree.map ys).truthy := (Alike.maps keys values).truthy
    have empty : xs.isEmpty = ys.isEmpty := Bool.not_inj truthy
    cases xs with
    | nil =>
      cases ys with
      | nil => exact .inl (.ok .nil)
      | cons entry rest => cases empty
    | cons entry rest =>
      cases ys with
      | nil => cases empty
      | cons other others =>
        refine .inr ⟨_, _, rfl, rfl, by simp, by simp, fun part hp => ?_, fun part hp => ?_⟩
        · obtain ⟨_, _, rfl⟩ := List.mem_map.mp hp
          rfl
        · obtain ⟨_, _, rfl⟩ := List.mem_map.mp hp
          rfl

namespace SizeTemplate

variable {xs ys : List Tree} {a b : Tree}

theorem emptyService_reordered (h : Reordered a b) :
    Reordered (emptyService a) (emptyService b) :=
  .of_forall₂ (by simp [Keyed.keys]) (.cons ⟨rfl, h⟩ (.cons ⟨rfl, .refl regular_empty⟩
    (.cons ⟨rfl, .list .nil⟩ .nil)))

theorem lay_reordered (hs : List.Forall₂ Reordered xs ys) (ht : Reordered a b) :
    List.Forall₂ Reordered (lay xs a) (lay ys b) := by
  have name := ht.get "name"
  have found := Services.find?_reordered name hs
  have empty : Reordered (.map []) (.map []) := .refl regular_empty
  unfold lay
  dsimp only
  generalize Services.find? xs (a.get "name") = v, Services.find? ys (b.get "name") = w at found
  cases found with
  | none => exact List.rel_append hs (.cons (ht.fill (emptyService_reordered name)) .nil)
  | some current =>
    exact Services.set_reordered name
      (((ht.get "spec").orElse empty).fill ((current.get "spec").orElse empty)) empty hs

theorem apply_reordered (hs : List.Forall₂ Reordered xs ys) (ht : Reordered a b) :
    Agree (List.Forall₂ Reordered) (apply xs a) (apply ys b) := by
  unfold apply
  rcases elements_reordered ht with parts | ⟨us, vs, ha, hb, hu, hv, noMap, noMap'⟩
  · refine parts.bind fun us vs parts => ?_
    have maps : us.all Tree.isMap = vs.all Tree.isMap := by
      induction parts with
      | nil => rfl
      | cons first rest ih => rw [List.all_cons, List.all_cons, first.alike.isMap, ih]
    rw [maps]
    split
    · refine .ok (List.rel_foldl (fun us vs services part part' hp => ?_) hs parts)
      exact lay_reordered services hp
    · exact .fails _
  · have refused : ∀ parts : List Tree, parts ≠ [] → (∀ part ∈ parts, part.isMap = false) →
        parts.all Tree.isMap = false := by
      intro parts hp noMap
      cases parts with
      | nil => exact absurd rfl hp
      | cons part rest => rw [List.all_cons, noMap part (by simp), Bool.false_and]
    rw [ha, hb]
    simp only [Except.bind, refused us hu noMap, refused vs hv noMap']
    exact .fails _

end SizeTemplate

/-- The same contribution, with reordered services. -/
structure Contribution.Reordered (contribution other : Contribution) : Prop where
  services : List.Forall₂ Tree.Reordered contribution.services other.services
  modes : contribution.modes = other.modes

namespace Contribution

variable {a b : Tree}

theorem normalized_reordered (h : Tree.Reordered a b) :
    Tree.Reordered (normalized a) (normalized b) := by
  refine .of_forall₂ (by simp [Keyed.keys]) (.cons ⟨rfl, h.get "name"⟩ (.cons ⟨rfl, ?_⟩
    (.cons ⟨rfl, .list ?_⟩ .nil)))
  · exact (h.get "spec").entries.filter fun _ _ _ value => value.alike.isMap
  · exact forall₂_filter (fun _ _ item => item.alike.isMap) (h.get "resources").items

/-- The same draft, with reordered services. -/
structure Outline.Reordered (draft other : Outline) : Prop where
  services : List.Forall₂ Tree.Reordered draft.services other.services
  modes : draft.modes = other.modes

theorem Outline.Reordered.add {draft other : Outline} (h : draft.Reordered other)
    (tenant tenant' : String) {entry entry' : Tree × Nat} (hs : Tree.Reordered entry.1 entry'.1) :
    (draft.add tenant entry).Reordered (other.add tenant' entry') := by
  have found := Services.find?_reordered (.scalar (.text (entry'.1.get "name").string)) h.services
  have known : (Services.find? draft.services (.text (entry'.1.get "name").string)).isSome =
      (Services.find? other.services (.text (entry'.1.get "name").string)).isSome := by
    generalize Services.find? draft.services _ = v, Services.find? other.services _ = w at found
    cases found <;> rfl
  unfold Outline.add
  dsimp only
  rw [(hs.get "name").alike.string, (hs.get "managementStrategy").alike.string, known]
  split
  · exact ⟨h.services, h.modes⟩
  · split
    · exact ⟨h.services, h.modes⟩
    · exact ⟨List.rel_append h.services (.cons (normalized_reordered hs) .nil),
        by rw [h.modes]⟩

theorem forall₂_zipIdx {xs ys : List Tree} (h : List.Forall₂ Tree.Reordered xs ys) (n : Nat) :
    List.Forall₂ (fun e f => Tree.Reordered e.1 f.1) (xs.zipIdx n) (ys.zipIdx n) := by
  induction h generalizing n with
  | nil => exact .nil
  | cons first rest ih => exact .cons first (ih (n + 1))

theorem copyable_reordered (h : Tree.Reordered a b) : Copyable a ↔ Copyable b :=
  have kinds := ((h.get "spec").entries.filter fun _ _ _ value =>
    value.alike.isMap).values_depth_le Tree.maxCopied
  have overrides := Tree.Reordered.items_depth_le
    (forall₂_filter (fun _ _ item => item.alike.isMap) (h.get "resources").items) Tree.maxCopied
  ⟨fun c => ⟨kinds.mp c.kinds, overrides.mp c.overrides⟩,
    fun c => ⟨kinds.mpr c.kinds, overrides.mpr c.overrides⟩⟩

theorem Outline.Reordered.copied {draft other : Outline} (h : draft.Reordered other) :
    draft.Copied ↔ other.Copied := by
  have services := h.services
  unfold Outline.Copied
  generalize draft.services = xs, other.services = ys at services
  induction services with
  | nil => simp
  | cons first rest ih =>
    rw [List.forall_mem_cons, List.forall_mem_cons]
    exact and_congr (copyable_reordered first) ih

theorem outline_reordered (tenant tenant' : String) (h : Tree.Reordered a b) :
    (outline tenant a).Reordered (outline tenant' b) := by
  unfold outline
  dsimp only
  rw [(h.get Mode.tenantWide).alike.string]
  refine List.rel_foldl (fun draft other hd entry entry' service => ?_) ⟨.nil, rfl⟩
    (forall₂_zipIdx (h.get "services").items 0)
  exact Outline.Reordered.add hd tenant tenant' service

theorem templateFor_reordered {templates templates' : Option Tree}
    (ht : Option.Rel Tree.Reordered templates templates') (size : String) :
    Agree Tree.Reordered (templateFor templates size) (templateFor templates' size) := by
  cases ht with
  | none =>
    have builtin : (Tree.map SizeTemplate.builtin).distinct = true :=
      regular_mono (fun _ _ => rfl) SizeTemplate.regular_builtin
    exact .ok ((Tree.Reordered.refl builtin).get (Text.lower size))
  | some tree =>
    have entry := tree.get (Text.lower size)
    obtain ⟨alike, -, -⟩ := tree
    cases alike with
    | scalars value => exact .fails _
    | lists length items => exact .fails _
    | maps keys values => exact .ok entry

theorem sized_reordered {templates templates' : Option Tree}
    (ht : Option.Rel Tree.Reordered templates templates') (tenant tenant' size : String)
    {xs ys : List Tree} (hs : List.Forall₂ Tree.Reordered xs ys) :
    Agree (List.Forall₂ Tree.Reordered) (sized templates tenant size xs).outcome
      (sized templates' tenant' size ys).outcome := by
  unfold sized
  split
  · exact .ok hs
  · simp only [Report.outcome_bind, Report.outcome_ofExcept]
    refine (templateFor_reordered ht size).bind fun template template' related => ?_
    rw [related.alike.isNull]
    split
    · exact .ok hs
    · rw [Report.outcome_bind, Report.outcome_bind]
      exact related.copy.bind fun _ _ copied => SizeTemplate.apply_reordered hs copied

theorem read_reordered {templates templates' : Option Tree}
    (ht : Option.Rel Tree.Reordered templates templates') (h : Tree.Reordered a b) :
    Agree Reordered (read templates a).outcome (read templates' b).outcome := by
  have draft : (outlineOf a).Reordered (outlineOf b) := outline_reordered _ _ (h.get "spec")
  cases map : b.isMap with
  | false =>
    rw [read, read, h.alike.isMap, map]
    exact .fails _
  | true =>
    have map' : a.isMap = true := h.alike.isMap.trans map
    by_cases copied : (outlineOf b).Copied
    · rw [read_of_copied map copied, read_of_copied map' (draft.copied.mpr copied)]
      simp only [Report.outcome_bind, Report.outcome_note, Except.bind]
      rw [((h.get "spec").get "size").alike.string]
      exact Agree.bind (sized_reordered ht _ _ _ draft.services) fun us vs services =>
        .ok ⟨services, draft.modes⟩
    · rw [read_of_deep map copied, read_of_deep map' (mt draft.copied.mp copied)]
      exact .fails _

end Contribution

namespace Tenant

theorem live_reordered {these those : List Tree} (h : List.Forall₂ Reordered these those) :
    List.Forall₂ Reordered (live these) (live those) := by
  refine forall₂_live (fun a b hab => ?_) (fun a b hab => ?_) h
  · have clone := (hab.follow ["metadata", "labels"]).alike.has cloneLabel
    rw [Tree.has, Tree.has] at clone
    rw [isLive, isLive, isClone, isClone, isBeingDeleted, isBeingDeleted, clone,
      (hab.follow ["metadata", "deletionTimestamp"]).alike.truthy]
  · rw [seat, seat, space, space, name, name, (hab.follow ["metadata", "namespace"]).alike.string,
      (hab.follow ["metadata", "name"]).alike.string]

end Tenant

structure Wish.Reordered (wish other : Wish) : Prop where
  operand : Tree.Reordered wish.operand other.operand
  independent : wish.independent = other.independent
  spec : Tree.Reordered (.map wish.spec) (.map other.spec)
  resources : List.Forall₂ Tree.Reordered wish.resources other.resources

theorem forall₂_modify {α β : Type} {R : α → β → Prop} {f : α → α} {g : β → β} {xs : List α}
    {ys : List β} (hf : ∀ x y, R x y → R (f x) (g y)) (h : List.Forall₂ R xs ys) (i : Nat) :
    List.Forall₂ R (xs.modify i f) (ys.modify i g) := by
  induction h generalizing i with
  | nil => simp
  | cons first rest ih =>
    cases i with
    | zero => simpa using ⟨hf _ _ first, rest⟩
    | succ i => simpa using ⟨first, ih i⟩

namespace Wish

variable {scope other : Scope} {wish wish' : Wish} {kind : String}

/-- What the summary holds of a kind once a wish that names no kind twice has been folded into it.
-/
theorem lookup_foldKind (scope : Scope) (wish : Wish) (hn : (Keyed.keys wish.spec).Nodup)
    (spec : Entries) (kind : String) :
    ((wish.governedKinds scope).foldl foldKind spec).lookup kind =
      ((wish.spec.lookup kind).bind fun wanted => (scope.rules.forKind? wish.operand kind).map
        fun rules => (heldKind spec kind).filteredMerge policy rules false
          (scope.release wish.independent wish.operand kind wanted)).or (spec.lookup kind) := by
  obtain ⟨operand, independent, owner, kinds, resources⟩ := wish
  unfold governedKinds
  dsimp only at hn ⊢
  induction kinds generalizing spec with
  | nil => rfl
  | cons entry rest ih =>
    obtain ⟨k, wanted⟩ := entry
    simp only [Keyed.keys, List.map_cons, List.nodup_cons] at hn
    have absent : rest.lookup k = none := by
      cases hl : rest.lookup k with
      | none => rfl
      | some value => exact absurd (List.mem_map.mpr ⟨_, Keyed.mem_of_lookup hl, rfl⟩) hn.1
    rw [List.filterMap_cons, Keyed.lookup_cons]
    cases hr : scope.rules.forKind? operand k with
    | none =>
      by_cases hk : kind = k
      · subst hk
        simp [ih _ hn.2, absent, hr]
      · simp [ih _ hn.2, hk]
    | some rules =>
      by_cases hk : kind = k
      · subst hk
        simp [ih _ hn.2, absent, hr, foldKind, Keyed.lookup_insert]
      · simp [ih _ hn.2, hk, foldKind, heldKind, Keyed.lookup_insert]

theorem nodup_foldKind {spec : Entries} (hn : (Keyed.keys spec).Nodup)
    (kinds : List (String × Entries × Tree)) :
    (Keyed.keys (kinds.foldl foldKind spec)).Nodup :=
  List.foldlRecOn (motive := fun spec : Entries => (Keyed.keys spec).Nodup) _ _ hn
    fun _ hd _ _ => Keyed.nodup_insert hd _ _

namespace Reordered

variable (h : wish.Reordered wish') (hs : scope.Alike other)

include h hs

/-- The kinds of a wish may be folded in any order. -/
theorem foldKinds {spec spec' : Entries} (ht : Tree.Reordered (.map spec) (.map spec')) :
    Tree.Reordered (.map ((wish.governedKinds scope).foldl foldKind spec))
      (.map ((wish'.governedKinds other).foldl foldKind spec')) := by
  refine .of_lookup (nodup_foldKind (regular_map.mp ht.first).1 _)
    (nodup_foldKind (regular_map.mp ht.second).1 _) fun kind => ?_
  rw [lookup_foldKind scope wish (regular_map.mp h.spec.first).1,
    lookup_foldKind other wish' (regular_map.mp h.spec.second).1]
  have held : Option.Rel Tree.Reordered (spec.lookup kind) (spec'.lookup kind) := ht.lookup kind
  have before : Tree.Reordered (heldKind spec kind) (heldKind spec' kind) :=
    (ht.get kind).orElse (.refl regular_empty)
  have asked : Option.Rel Tree.Reordered (wish.spec.lookup kind) (wish'.spec.lookup kind) :=
    h.spec.lookup kind
  have rules := hs.rules.forKind? h.operand.alike kind
  generalize wish.spec.lookup kind = v, wish'.spec.lookup kind = w at asked
  generalize scope.rules.forKind? wish.operand kind = v,
    other.rules.forKind? wish'.operand kind = w at rules
  cases asked with
  | none => exact held
  | some wanted =>
    cases rules with
    | none => exact held
    | some alike =>
      rw [h.independent]
      exact .some (before.filteredMerge policy false
        (hs.release wish'.independent h.operand.alike kind wanted) alike)

theorem foldResource {us vs : List Tree} {a b : Tree} (hu : List.Forall₂ Tree.Reordered us vs)
    (hr : Tree.Reordered a b) :
    List.Forall₂ Tree.Reordered (wish.foldResource scope us a) (wish'.foldResource other vs b) := by
  have wanted := releasedResource_reordered wish'.independent hr
  unfold Wish.foldResource
  dsimp only
  rw [Identity.raw_reordered hr, hs.space, h.independent, Identity.position?_reordered _ _ hu]
  split
  · exact forall₂_modify (fun _ _ held => held.merge policy none wanted) hu _
  · exact List.rel_append hu (.cons wanted .nil)

theorem into {summary summary' : List Tree} (hu : List.Forall₂ Tree.Reordered summary summary') :
    List.Forall₂ Tree.Reordered (wish.into scope summary) (wish'.into other summary') := by
  have held : Tree.Reordered ((Services.find? summary wish.operand).getD (.map []))
      ((Services.find? summary' wish'.operand).getD (.map [])) := by
    have found := Services.find?_reordered h.operand hu
    generalize Services.find? summary wish.operand = v,
      Services.find? summary' wish'.operand = w at found
    cases found with
    | none => exact .refl regular_empty
    | some entry => exact entry
  have spec := h.foldKinds hs (held.get "spec").entries
  have resources : List.Forall₂ Tree.Reordered
      ((completeResources wish.resources).foldl (wish.foldResource scope)
        (((Services.find? summary wish.operand).getD (.map [])).get "resources").items)
      ((completeResources wish'.resources).foldl (wish'.foldResource other)
        (((Services.find? summary' wish'.operand).getD (.map [])).get "resources").items) := by
    refine List.rel_foldl (fun us vs hu a b hr => ?_) (held.get "resources").items
      (completeResources_reordered h.resources)
    exact h.foldResource hs hu hr
  have stub : ∀ {spec spec' resources resources' : Tree}, Tree.Reordered spec spec' →
      Tree.Reordered resources resources' → Tree.Reordered
        (.map [("name", wish.operand), ("spec", spec), ("resources", resources)])
        (.map [("name", wish'.operand), ("spec", spec'), ("resources", resources')]) :=
    fun hs hr => .of_forall₂ (by simp [Keyed.keys])
      (.cons ⟨rfl, h.operand⟩ (.cons ⟨rfl, hs⟩ (.cons ⟨rfl, hr⟩ .nil)))
  unfold Wish.into
  exact Services.set_reordered h.operand (.list resources)
    (stub (.refl regular_empty) (.list resources))
    (Services.set_reordered h.operand spec (stub spec (.list .nil)) hu)

end Reordered

end Wish

section Demands

variable {scope other : Scope} {a b : Tree}

theorem Mode.resolveFor_reordered (modes : Keyed String) (h : Reordered a b) :
    resolveFor modes a = resolveFor modes b := by
  obtain ⟨alike, -, -⟩ := h
  cases alike <;> rfl

theorem foldService_reordered (hs : scope.Alike other) (modes : Keyed String)
    (owner owner' : String) {summary summary' : List Tree}
    (hu : List.Forall₂ Reordered summary summary') (h : Reordered a b) :
    Agree (List.Forall₂ Reordered) (foldService scope modes owner summary a).outcome
      (foldService other modes owner' summary' b).outcome := by
  unfold foldService
  simp only [Report.outcome_bind, Report.outcome_ofExcept]
  rw [Mode.resolveFor_reordered modes (h.get "name")]
  cases Mode.resolveFor modes (b.get "name") with
  | error failure => exact .fails failure
  | ok mode =>
    simp only [Except.bind, Wish.outcome_fold]
    refine .ok (Wish.Reordered.into ?_ hs hu)
    exact ⟨h.get "name", rfl, (h.get "spec").entries, (h.get "resources").items⟩

structure Demand.Reordered (demand other : Demand) : Prop where
  modes : demand.modes = other.modes
  summary : List.Forall₂ Tree.Reordered demand.summary other.summary

theorem readDemand_reordered {templates templates' : Option Tree} (hs : scope.Alike other)
    (ht : Option.Rel Reordered templates templates') {these those : List Tree}
    (h : List.Forall₂ Reordered these those) :
    Agree Demand.Reordered (readDemand scope templates these).outcome
      (readDemand other templates' those).outcome := by
  unfold readDemand
  simp only [Report.outcome_bind]
  have reads : Agree (List.Forall₂ Contribution.Reordered)
      (these.mapM (Contribution.read templates)).outcome
      (those.mapM (Contribution.read templates')).outcome := by
    refine Report.agree_mapM (fun a b hab => ?_) h
    exact Contribution.read_reordered ht hab
  refine reads.bind fun few more read => ?_
  have modes : few.map Contribution.modes = more.map Contribution.modes := by
    induction read with
    | nil => rfl
    | cons first rest ih => rw [List.map_cons, List.map_cons, first.modes, ih]
  rw [modes]
  have summed : Agree (List.Forall₂ Reordered)
      (summarize scope (Mode.gather (more.map Contribution.modes)) few).outcome
      (summarize other (Mode.gather (more.map Contribution.modes)) more).outcome := by
    refine Report.agree_foldlM (fun us vs first second hu hc => ?_) read .nil
    refine Report.agree_foldlM (fun us vs a b hu hr => ?_) hc.services hu
    exact foldService_reordered hs _ _ _ hu hr
  exact summed.bind fun us vs summary => .ok ⟨rfl, summary⟩

/-- Tenants that are nothing but names cannot be read. -/
theorem readDemand_names {templates : Option Tree} {names : List Tree} (hn : names ≠ [])
    (noMap : ∀ name ∈ names, name.isMap = false) :
    (readDemand scope templates (Tenant.live names)).outcome = .error .wrongShape := by
  obtain ⟨name, rest, rfl⟩ := List.exists_cons_of_ne_nil hn
  have live : name ∈ Tenant.live (name :: rest) := by
    refine Tenant.mem_live.mpr ⟨by simp, ?_⟩
    have nothing : ∀ keys ≠ [], name.follow keys = .null :=
      fun _ => follow_of_not_map (noMap name (by simp))
    rw [Tenant.isLive, Tenant.isClone, Tenant.isBeingDeleted, nothing _ (by simp),
      nothing _ (by simp)]
    rfl
  obtain ⟨first, others, he⟩ := List.exists_cons_of_ne_nil (List.ne_nil_of_mem live)
  have listed : first ∈ name :: rest := (Tenant.mem_live.mp (he ▸ List.mem_cons_self)).1
  unfold readDemand
  rw [he, List.mapM_cons]
  simp only [Report.outcome_bind]
  rw [Contribution.read, noMap first listed]
  rfl

variable {r s : Reconciler} {rules others : RuleSet} {tenants tenants' : Tree}

theorem Reconciler.demanded_reordered (hr : rules.Alike others) (space : r.space = s.space)
    (ht : Option.Rel Reordered r.templates s.templates) (h : Reordered tenants tenants') :
    Agree Demand.Reordered (r.demanded rules tenants) (s.demanded others tenants') := by
  have scopes : (r.scope rules).Alike (s.scope others) := ⟨hr, space⟩
  have listed : Reordered (if tenants.isNull then .list [] else tenants)
      (if tenants'.isNull then .list [] else tenants') := by
    rw [h.alike.isNull]
    split
    · exact .list .nil
    · exact h
  unfold demanded listedTenants
  rcases elements_reordered listed with items | ⟨us, vs, ha, hb, hu, hv, noMap, noMap'⟩
  · exact items.bind fun us vs items =>
      readDemand_reordered scopes ht (Tenant.live_reordered items)
  · rw [ha, hb]
    simp only [Except.bind, readDemand_names hu noMap, readDemand_names hv noMap']
    exact .fails _

end Demands

structure Target.Reordered (target other : Target) : Prop where
  extreme : target.extreme = other.extreme
  operand : target.operand = other.operand
  independent : target.independent = other.independent
  summed : Tree.Reordered target.summed other.summed

namespace Target.Reordered

variable {scope other : Scope} {target target' : Target} {a b : Tree}
  (h : target.Reordered target') (hs : scope.Alike other)

include h hs

theorem applyKind (kind : String) (hc : Tree.Reordered a b) :
    Tree.Reordered (target.applyKind scope kind a) (target'.applyKind other kind b) := by
  have held : Tree.Reordered
      (scope.release target.independent (.text target.operand) kind a)
      (other.release target'.independent (.text target'.operand) kind b) := by
    rw [h.operand, h.independent]
    exact hs.release _ (.refl _) kind hc
  have summed := h.summed.follow ["spec", kind]
  unfold Target.applyKind
  dsimp only
  rw [summed.alike.isNull, h.extreme]
  split
  · exact held
  · exact held.extremeMerge _ summed

theorem applyResource (hr : Tree.Reordered a b) :
    Tree.Reordered (target.applyResource scope a) (target'.applyResource other b) := by
  have found : Option.Rel Tree.Reordered (target.overrideFor? scope a)
      (target'.overrideFor? other b) := by
    unfold Target.overrideFor?
    rw [Identity.read_reordered hr, hs.space]
    cases Identity.read b other.space with
    | error raw => exact .none
    | ok identity =>
      exact Identity.find?_reordered identity other.space (h.summed.get "resources").items
  unfold Target.applyResource
  generalize target.overrideFor? scope a = v, target'.overrideFor? other b = w at found
  cases found with
  | none => exact hr
  | some summed =>
    rw [h.extreme]
    exact hr.extremeMerge _ summed

theorem apply (ht : Tree.Reordered a b) :
    Tree.Reordered (target.apply scope a) (target'.apply other b) := by
  rw [Target.apply_eq_rework, Target.apply_eq_rework]
  exact Services.rework_reordered
    (fun us vs kinds => kinds.map_values fun kind _ _ => h.applyKind hs kind)
    (fun us vs => forall₂_map fun _ _ => h.applyResource hs) ht

end Target.Reordered

theorem applySummary_reordered {scope other : Scope} (hs : scope.Alike other) (x : Extreme)
    {demand demand' : Demand} (hd : demand.Reordered demand') {xs ys : List Tree}
    (h : List.Forall₂ Reordered xs ys) :
    List.Forall₂ Reordered (applySummary scope demand.modes x demand.summary xs)
      (applySummary other demand'.modes x demand'.summary ys) := by
  refine forall₂_map (fun a b hab => ?_) h
  have summed : Reordered
      ((Services.find? demand.summary (.text (a.get "name").string)).getD .null)
      ((Services.find? demand'.summary (.text (b.get "name").string)).getD .null) := by
    rw [(hab.get "name").alike.string]
    have found := Services.find?_reordered (.scalar (.text (b.get "name").string)) hd.summary
    generalize Services.find? demand.summary _ = v, Services.find? demand'.summary _ = w at found
    cases found with
    | none => exact .null
    | some entry => exact entry
  have target : (targetOf demand.modes x demand.summary a).Reordered
      (targetOf demand'.modes x demand'.summary b) := by
    refine ⟨rfl, (hab.get "name").alike.string, ?_, summed⟩
    unfold targetOf
    rw [(hab.get "name").alike.string, hd.modes]
  unfold applySummaryTo
  rw [hab.alike.isMap]
  split
  · exact target.apply hs hab
  · exact hab

end TenantSizing
