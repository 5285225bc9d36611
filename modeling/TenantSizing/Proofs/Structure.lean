import Mathlib.Data.List.Forall2
import TenantSizing.Proofs.Configs
import TenantSizing.Proofs.Runs
import TenantSizing.Proofs.Targets

namespace TenantSizing

/-- Related in their places, one step after the other. -/
theorem forall₂_trans {α : Type} {R : α → α → Prop} (trans : ∀ a b c, R a b → R b c → R a c)
    {xs ys zs : List α} (h : List.Forall₂ R xs ys) (hs : List.Forall₂ R ys zs) :
    List.Forall₂ R xs zs := by
  induction h generalizing zs with
  | nil => exact hs
  | cons first rest ih =>
    cases hs with
    | cons next others => exact .cons (trans _ _ _ first next) (ih others)

theorem forall₂_map_of_forall {α : Type} {R : α → α → Prop} {f : α → α} {xs : List α}
    (h : ∀ x ∈ xs, R x (f x)) : List.Forall₂ R xs (xs.map f) :=
  List.forall₂_map_right_iff.mpr (List.forall₂_same.mpr h)

namespace Tree

/-- A map that keeps its keys in their places while its values follow `R`; anything else stays. -/
inductive KeyByKey (R : String → Tree → Tree → Prop) : Tree → Tree → Prop where
  | maps {before after : Entries}
      (entries : List.Forall₂ (fun x y => x.1 = y.1 ∧ R x.1 x.2 y.2) before after) :
      KeyByKey R (.map before) (.map after)
  | other {tree : Tree} (h : tree.isMap = false) : KeyByKey R tree tree

/-- A list that keeps its length while its items follow `R`; anything else stays. -/
inductive ItemByItem (R : Tree → Tree → Prop) : Tree → Tree → Prop where
  | lists {before after : List Tree} (items : List.Forall₂ R before after) :
      ItemByItem R (.list before) (.list after)
  | other {tree : Tree} (h : tree.items? = none) : ItemByItem R tree tree

/-- Only the value of this key may change, and it follows `R`. -/
def Only (name : String) (R : Tree → Tree → Prop) (key : String) (before after : Tree) : Prop :=
  if key = name then R before after else after = before

variable {R : String → Tree → Tree → Prop} {S : Tree → Tree → Prop} {a b c : Tree}

theorem KeyByKey.refl (h : ∀ key tree, R key tree tree) (a : Tree) : KeyByKey R a a := by
  cases a with
  | map entries => exact .maps (List.forall₂_same.mpr fun entry _ => ⟨rfl, h entry.1 entry.2⟩)
  | list items => exact .other rfl
  | scalar value => exact .other rfl

theorem KeyByKey.trans (trans : ∀ {key a b c}, R key a b → R key b c → R key a c)
    (h : KeyByKey R a b) (hs : KeyByKey R b c) : KeyByKey R a c := by
  cases h with
  | other hm => exact hs
  | maps entries =>
    cases hs with
    | other hm => cases hm
    | maps later =>
      refine .maps (forall₂_trans (fun _ _ _ hx hy => ?_) entries later)
      exact ⟨hx.1.trans hy.1, trans hx.2 (hx.1 ▸ hy.2)⟩

theorem ItemByItem.refl (h : ∀ tree, S tree tree) (a : Tree) : ItemByItem S a a := by
  cases a with
  | list items => exact .lists (List.forall₂_same.mpr fun item _ => h item)
  | map entries => exact .other rfl
  | scalar value => exact .other rfl

theorem ItemByItem.trans (trans : ∀ {a b c}, S a b → S b c → S a c) (h : ItemByItem S a b)
    (hs : ItemByItem S b c) : ItemByItem S a c := by
  cases h with
  | other hm => exact hs
  | lists items =>
    cases hs with
    | other hm => cases hm
    | lists later => exact .lists (forall₂_trans (R := S) (fun _ _ _ => trans) items later)

theorem Only.refl (h : ∀ tree, S tree tree) (name key : String) (a : Tree) :
    Only name S key a a := by
  unfold Only
  split
  · exact h a
  · rfl

theorem Only.trans {name key : String} (trans : ∀ {a b c}, S a b → S b c → S a c)
    (h : Only name S key a b) (hs : Only name S key b c) : Only name S key a c := by
  unfold Only at h hs ⊢
  split at h
  · rename_i hk
    rw [if_pos hk] at hs ⊢
    exact trans h hs
  · rename_i hk
    rw [if_neg hk] at hs ⊢
    exact hs.trans h

theorem KeyByKey.insert (refl : ∀ key tree, R key tree tree) {entries : Entries} {key : String}
    {value next : Tree} (hl : entries.lookup key = some value) (h : R key value next) :
    KeyByKey R (.map entries) (.map (Keyed.insert entries key next)) := by
  refine .maps ?_
  induction entries with
  | nil => cases hl
  | cons entry rest ih =>
    obtain ⟨k, v⟩ := entry
    rw [Keyed.lookup_cons] at hl
    rw [Keyed.insert]
    by_cases hk : k = key
    · subst hk
      rw [if_pos rfl] at hl ⊢
      cases hl
      exact .cons ⟨rfl, h⟩ (List.forall₂_same.mpr fun other _ => ⟨rfl, refl _ _⟩)
    · rw [if_neg (Ne.symm hk)] at hl
      rw [if_neg hk]
      exact .cons ⟨rfl, refl _ _⟩ (ih hl)

theorem KeyByKey.replace (refl : ∀ key tree, R key tree tree) {field : String}
    {change : Tree → Option Tree} (hn : change .null = none) (tree : Tree)
    (h : ∀ value, change (tree.get field) = some value → R field (tree.get field) value) :
    KeyByKey R tree (tree.replace field change) := by
  unfold Tree.replace
  cases hc : change (tree.get field) with
  | none => exact .refl refl tree
  | some value =>
    have hv : tree.get field ≠ .null := fun he => by
      rw [he, hn] at hc
      cases hc
    obtain ⟨entries, rfl⟩ := isMap_iff.mp (isMap_of_get field hv)
    cases hl : entries.lookup field with
    | none => exact absurd (by rw [get_map, hl]; rfl) hv
    | some held =>
      have hg : (Tree.map entries).get field = held := by rw [get_map, hl]; rfl
      exact .insert refl hl (hg ▸ h value hc)

end Tree

open TenantSizing.Tree

/-- A resource that says which one it is stays the same resource; any other one stays as it is. -/
def KeepsIdentity (space : String) (before after : Tree) : Prop :=
  match Identity.read before space with
  | .ok identity => Identity.read after space = .ok identity
  | .error _ => after = before

/-- What may change of a service: the contents of its kinds, and of its resources. -/
def KeepsField (space field : String) (before after : Tree) : Prop :=
  if field = "spec" then KeyByKey (fun _ _ _ => True) before after
  else Only "resources" (ItemByItem (KeepsIdentity space)) field before after

/-- A service keeps its fields, its kinds and its resources; an entry that is no map stays. -/
def KeepsService (space : String) : Tree → Tree → Prop :=
  KeyByKey (KeepsField space)

/-- An OperandConfig keeps its services and all that is around them. -/
def KeepsConfig (space : String) : Tree → Tree → Prop :=
  KeyByKey (Only "spec" (KeyByKey (Only "services" (ItemByItem (KeepsService space)))))

variable {space : String} {a b c : Tree}

theorem KeepsIdentity.refl (a : Tree) : KeepsIdentity space a a := by
  unfold KeepsIdentity
  split
  · assumption
  · rfl

theorem KeepsIdentity.trans (h : KeepsIdentity space a b) (hs : KeepsIdentity space b c) :
    KeepsIdentity space a c := by
  unfold KeepsIdentity at h hs ⊢
  cases hr : Identity.read a space with
  | ok identity =>
    rw [hr] at h
    rw [show Identity.read b space = _ from h] at hs
    exact hs
  | error raw =>
    rw [hr] at h
    rw [show b = a from h, hr] at hs
    exact hs

theorem KeepsIdentity.read_eq (h : KeepsIdentity space a b) :
    Identity.read b space = Identity.read a space := by
  unfold KeepsIdentity at h
  cases hr : Identity.read a space with
  | ok identity =>
    rw [hr] at h
    exact h
  | error raw =>
    rw [hr] at h
    rw [show b = a from h, hr]

theorem KeepsField.refl (field : String) (a : Tree) : KeepsField space field a a := by
  unfold KeepsField
  split
  · exact .refl (fun _ _ => trivial) a
  · exact .refl (.refl KeepsIdentity.refl) _ _ a

theorem KeepsField.trans {field : String} (h : KeepsField space field a b)
    (hs : KeepsField space field b c) : KeepsField space field a c := by
  unfold KeepsField at h hs ⊢
  split at h
  · rename_i hf
    rw [if_pos hf] at hs ⊢
    exact h.trans (fun _ _ => trivial) hs
  · rename_i hf
    rw [if_neg hf] at hs ⊢
    exact h.trans (ItemByItem.trans KeepsIdentity.trans) hs

theorem KeepsService.refl (a : Tree) : KeepsService space a a :=
  KeyByKey.refl KeepsField.refl a

theorem KeepsService.trans (h : KeepsService space a b) (hs : KeepsService space b c) :
    KeepsService space a c :=
  KeyByKey.trans KeepsField.trans h hs

theorem KeepsConfig.refl (a : Tree) : KeepsConfig space a a :=
  KeyByKey.refl (Only.refl (KeyByKey.refl (Only.refl (ItemByItem.refl KeepsService.refl) _)) _) a

theorem KeepsConfig.trans (h : KeepsConfig space a b) (hs : KeepsConfig space b c) :
    KeepsConfig space a c :=
  KeyByKey.trans (Only.trans (KeyByKey.trans (Only.trans (ItemByItem.trans KeepsService.trans)))) h
    hs

namespace Identity

variable {identity : Identity} {fallback : String}

/-- Identities are read from these fields only. -/
theorem holds_congr
    (h : ∀ key ∈ ["namespace", "apiVersion", "kind", "name"], a.get key = b.get key) :
    identity.holds fallback a = identity.holds fallback b := by
  have hs := h "namespace" (by simp)
  have hv := h "apiVersion" (by simp)
  have hk := h "kind" (by simp)
  have hn := h "name" (by simp)
  simp only [holds, raw, placedIn, hs, hv, hk, hn]
  rfl

/-- Dropping its cpu limit leaves a resource the identity that it has. -/
theorem holds_releasedResource (independent : Bool) (resource : Tree) :
    identity.holds fallback (releasedResource independent resource) =
      identity.holds fallback resource := by
  unfold releasedResource
  split
  · refine holds_congr fun key hk => ?_
    have hd : key ≠ "data" := by
      rintro rfl
      simp at hk
    unfold Tree.dropCpuLimit Tree.updateMap
    cases resource with
    | scalar value => rfl
    | list items => rfl
    | map entries =>
      dsimp only
      cases entries.lookup "data" with
      | none => rfl
      | some data => exact (get_insert _ _ _ _).trans (if_neg hd)
  · rfl

end Identity

theorem KeepsIdentity.of_blend {takes : Tree → Tree → Prop} {identity : Identity} {wanted : Tree}
    (hr : Identity.read a space = .ok identity) (hw : identity.holds space wanted = true)
    (h : Blend takes a wanted b) : KeepsIdentity space a b := by
  unfold KeepsIdentity
  rw [hr]
  exact Identity.read_blend h hr hw

theorem KeepsService.rework {f : Entries → Entries} {g : List Tree → List Tree}
    (hf : ∀ kinds, List.Forall₂ (fun x y => x.1 = y.1) kinds (f kinds))
    (hg : ∀ items, List.Forall₂ (KeepsIdentity space) items (g items)) (service : Tree) :
    KeepsService space service (Services.rework f g service) := by
  refine KeepsService.trans (b := service.replace "spec" (Services.onKinds f)) ?_ ?_
  · refine KeyByKey.replace KeepsField.refl rfl _ fun value hv => ?_
    rw [KeepsField, if_pos rfl]
    cases hs : service.get "spec" with
    | map kinds =>
      rw [hs] at hv
      cases hv
      exact .maps ((hf kinds).imp fun x y hk => ⟨hk, trivial⟩)
    | list items => simp [hs, Services.onKinds] at hv
    | scalar value => simp [hs, Services.onKinds] at hv
  · refine KeyByKey.replace KeepsField.refl rfl _ fun value hv => ?_
    rw [KeepsField, if_neg (by decide), Only, if_pos rfl]
    cases hs : (service.replace "spec" (Services.onKinds f)).get "resources" with
    | list items =>
      rw [hs] at hv
      cases hv
      exact .lists (hg items)
    | map entries => simp [hs, Services.onItems] at hv
    | scalar value => simp [hs, Services.onItems] at hv

/-- A tenant's override leaves a resource its identity. -/
theorem Request.keepsIdentity (scope : Scope) (request : Request) (overrides : List Tree)
    (resource : Tree) :
    KeepsIdentity scope.space resource (request.applyResource scope overrides resource) := by
  unfold applyResource
  split
  · rename_i wanted ho
    unfold overrideFor? at ho
    split at ho
    · rename_i identity hr
      obtain ⟨found, hf, rfl⟩ := Option.map_eq_some_iff.mp ho
      refine .of_blend hr ?_ (blend_merge _ _)
      rw [Identity.holds_releasedResource]
      exact List.find?_some hf
    · cases ho
  · exact .refl resource

theorem Target.keepsIdentity (scope : Scope) (target : Target) (resource : Tree) :
    KeepsIdentity scope.space resource (target.applyResource scope resource) := by
  unfold applyResource
  split
  · rename_i summed ho
    unfold overrideFor? at ho
    split at ho
    · rename_i identity hr
      exact .of_blend hr (List.find?_some ho) (blend_extremeMerge _ _)
    · cases ho
  · exact .refl resource

/-- A tenant's request leaves the structure of a service. -/
theorem Request.keepsService (scope : Scope) (request : Request) (service : Tree) :
    KeepsService scope.space service (request.apply scope service) := by
  rw [apply_eq_rework]
  refine KeepsService.rework (fun kinds => ?_) (fun items => ?_) service
  · exact forall₂_map_of_forall fun entry _ => rfl
  · unfold applyResources
    split
    · exact forall₂_map_of_forall fun resource _ => request.keepsIdentity scope _ resource
    · exact List.forall₂_same.mpr fun resource _ => .refl resource

theorem Target.keepsService (scope : Scope) (target : Target) (service : Tree) :
    KeepsService scope.space service (target.apply scope service) := by
  rw [apply_eq_rework]
  refine KeepsService.rework (fun kinds => ?_) (fun items => ?_) service
  · exact forall₂_map_of_forall fun entry _ => rfl
  · exact forall₂_map_of_forall fun resource _ => target.keepsIdentity scope resource

theorem Services.forall₂_change {R : Tree → Tree → Prop} (refl : ∀ tree, R tree tree)
    {f : Tree → Tree} {name : Tree} (hf : ∀ tree, isNamed name tree = true → R tree (f tree))
    (items : List Tree) : List.Forall₂ R items (change items name f) := by
  induction items with
  | nil => exact .nil
  | cons item rest ih =>
    rw [change]
    split
    · rename_i hn
      exact .cons (hf item hn) (List.forall₂_same.mpr fun other _ => refl other)
    · exact .cons (refl item) ih

section Services

variable {scope : Scope} {services : List Tree}

theorem keepsServices_applyConfigs {modes : Tree} {after configs : List Tree}
    (h : (applyConfigs scope modes services configs).outcome = .ok after) :
    List.Forall₂ (KeepsService scope.space) services after := by
  refine Report.foldlM_invariant (P := List.Forall₂ (KeepsService scope.space) services) ?_
    (List.forall₂_same.mpr fun service _ => .refl service) h
  intro config _ before next hb ho
  rcases applyConfig_ok ho with ⟨rfl, _⟩ | ⟨_, _, independent, _, _, _, _, rfl⟩
  · exact hb
  · exact forall₂_trans (fun _ _ _ => .trans) hb
      (Services.forall₂_change .refl (fun tree _ => Request.keepsService scope _ tree) before)

theorem keepsServices_applySummary (scope : Scope) (modes : Keyed String) (x : Extreme)
    (summary services : List Tree) :
    List.Forall₂ (KeepsService scope.space) services
      (applySummary scope modes x summary services) := by
  refine forall₂_map_of_forall fun service _ => ?_
  unfold applySummaryTo
  split
  · exact Target.keepsService scope _ service
  · exact .refl service

end Services

theorem KeepsConfig.withServices {config : Tree} {held services : List Tree}
    (hl : config.follow ["spec", "services"] = .list held)
    (h : List.Forall₂ (KeepsService space) held services) :
    KeepsConfig space config (Reconciler.withServices config services) := by
  obtain ⟨entries, spec, rfl, hs, hi, he⟩ := withServices_eq services hl
  rw [he]
  have inner : ∀ key tree, Only "services" (ItemByItem (KeepsService space)) key tree tree :=
    Only.refl (ItemByItem.refl KeepsService.refl) "services"
  refine KeyByKey.insert (Only.refl (KeyByKey.refl inner) "spec") hs ?_
  rw [Only, if_pos rfl]
  refine KeyByKey.insert inner hi ?_
  rw [Only, if_pos rfl]
  exact .lists h

/-- What stays of the stored object, if there is one. -/
def KeepsStored (space : String) : Option Tree → Option Tree → Prop :=
  Option.Rel (KeepsConfig space)

theorem KeepsStored.refl (stored : Option Tree) : KeepsStored space stored stored := by
  cases stored with
  | none => exact .none
  | some config => exact .some (.refl config)

theorem KeepsStored.trans {before between after : Option Tree}
    (h : KeepsStored space before between) (hs : KeepsStored space between after) :
    KeepsStored space before after := by
  cases h with
  | none => exact hs
  | some first =>
    cases hs with
    | some next => exact .some (first.trans next)

namespace Reconciler

variable {r : Reconciler} {started : Notice} {prepare : Scope → List Tree → Report (List Tree)}
  {x : Extreme}

/-- However a reconcile ends, it leaves the structure of the stored object if its preparation leaves
that of the services. -/
theorem keepsStored_reconcile
    (hp : ∀ scope held prepared, (prepare scope held).outcome = .ok prepared →
      List.Forall₂ (KeepsService scope.space) held prepared) (p : Progress) :
    KeepsStored r.space p.cluster.config
      (Job.run (r.reconcile started prepare x) p).2.cluster.config := by
  rcases h : Job.run (r.reconcile started prepare x) p with ⟨failure | unchanged, q⟩
  · rw [(atomic_reconcile p failure q h).config]
    exact .refl _
  · obtain ⟨reading, prepared, ho, _, stores⟩ := run_reconcile_ok h
    rw [stores.written]
    split
    · exact .refl _
    · rw [reading.stored]
      have level : List.Forall₂ (KeepsService r.space) prepared (reading.level x prepared) :=
        keepsServices_applySummary (r.scope reading.rules) _ x _ prepared
      exact .some (.withServices reading.listed
        (forall₂_trans (fun _ _ _ => .trans) (hp _ _ _ ho) level))

theorem keepsStored_update (r : Reconciler) (configs : List Tree) (modes : Tree) (p : Progress) :
    KeepsStored r.space p.cluster.config
      (Job.run (r.update configs modes) p).2.cluster.config :=
  keepsStored_reconcile (fun _ _ _ ho => keepsServices_applyConfigs ho) p

theorem keepsStored_shrink (r : Reconciler) (p : Progress) :
    KeepsStored r.space p.cluster.config (Job.run r.shrink p).2.cluster.config := by
  refine keepsStored_reconcile (fun _ held _ ho => ?_) p
  cases ho
  exact List.forall₂_same.mpr fun service _ => .refl service

end Reconciler

end TenantSizing
