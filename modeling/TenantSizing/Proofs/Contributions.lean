import TenantSizing.Proofs.Layers
import TenantSizing.Proofs.Outlines
import TenantSizing.Proofs.Requests
import TenantSizing.Reconcile.Request

namespace TenantSizing

variable {P : Nat → Tree → Prop} {n : Nat}

namespace Tree

variable {pass : Scalar → Bool}

/-- What regular trees offer one by one is regular. -/
theorem regular_elements {tree : Tree} {parts : List Tree} (h : tree.regular pass = true)
    (hp : ∀ value, value.isComparable = true → pass value = true)
    (he : tree.elements? = .ok parts) : ∀ part ∈ parts, part.regular pass = true := by
  intro part hm
  unfold elements? at he
  split at he <;> cases he
  · exact regular_list.mp h part hm
  · obtain ⟨entry, _, rfl⟩ := List.mem_map.mp hm
    exact hp _ rfl
  · obtain ⟨c, _, rfl⟩ := List.mem_map.mp hm
    exact hp _ rfl

namespace Layered

variable (hP : Layered P)

include hP

theorem release {scope : Scope} {independent : Bool} {operand tree : Tree} (kind : String)
    (h : P n tree) : P n (scope.release independent operand kind tree) := by
  unfold Scope.release
  split
  · exact hP.dropManaged h _ _
  · exact h

theorem releasedResource {independent : Bool} {resource : Tree} (h : P n resource) :
    P n (releasedResource independent resource) := by
  unfold TenantSizing.releasedResource
  split
  · exact hP.dropCpuLimit h
  · exact h

/-- The maps that a tree offers one by one. Nothing else that offers anything offers a map. -/
theorem elements {tree : Tree} {parts : List Tree} (h : P (n + 1) tree)
    (he : tree.elements? = .ok parts) : ∀ part ∈ parts, part.isMap = true → P n part := by
  intro part hm map
  unfold elements? at he
  split at he <;> cases he
  · exact hP.list.mp h part hm
  · obtain ⟨entry, _, rfl⟩ := List.mem_map.mp hm
    cases map
  · obtain ⟨c, _, rfl⟩ := List.mem_map.mp hm
    cases map

/-- Setting a field of a service keeps all services in their layer. -/
theorem set {items : List Tree} {name value : Tree} {field : String} {stub : Entries}
    (h : ∀ item ∈ items, P (n + 1) item) (hv : P n value) (hs : P (n + 1) (.map stub)) :
    ∀ item ∈ Services.set items name field value stub, P (n + 1) item := by
  induction items with
  | nil =>
    intro item hi
    rw [Services.set, List.mem_singleton] at hi
    rw [hi]
    exact hs
  | cons first rest ih =>
    rw [List.forall_mem_cons] at h
    rw [Services.set]
    split
    · exact List.forall_mem_cons.mpr ⟨hP.insert (hP.map_entries h.1) hv field, h.2⟩
    · exact List.forall_mem_cons.mpr ⟨h.1, ih h.2⟩

theorem service {name spec resources : Tree} (hn : P (n + 1) name) (hs : P (n + 1) spec)
    (hr : P (n + 1) resources) :
    P (n + 2) (.map [("name", name), ("spec", spec), ("resources", resources)]) :=
  hP.insert (hP.insert (hP.insert (hP.empty (n + 1)) hn "name") hs "spec") hr "resources"

end Layered

end Tree

namespace SizeTemplate

open Tree

/-- The built-in templates hold no number that equals nothing. -/
theorem regular_builtin : (Tree.map builtin).regular Scalar.isComparable = true := by
  decide +kernel

variable (hP : Layered P)

include hP

theorem layered_lay {services : List Tree} {template : Tree}
    (h : ∀ service ∈ services, P (n + 3) service) (ht : P (n + 3) template) :
    ∀ service ∈ lay services template, P (n + 3) service := by
  unfold lay
  dsimp only
  split
  · intro service hm
    rcases List.mem_append.mp hm with hm | hm
    · exact h service hm
    · rw [List.mem_singleton.mp hm]
      exact hP.blend (blend_fill _ _) ht
        (hP.service (hP.get ht "name") (hP.empty (n + 1)) (hP.list.mpr (by simp)))
  · rename_i current hc
    have hf := h current (List.mem_of_find?_eq_some hc)
    have spec := hP.blend (blend_fill _ _) (hP.orElse (hP.get ht "spec"))
      (hP.orElse (hP.get hf "spec"))
    exact hP.set h spec (hP.empty (n + 2))

theorem layered_apply {services laid : List Tree} {template : Tree}
    (h : ∀ service ∈ services, P (n + 3) service) (ht : P (n + 4) template)
    (ha : apply services template = .ok laid) : ∀ service ∈ laid, P (n + 3) service := by
  unfold apply at ha
  cases he : template.elements? with
  | error failure =>
    rw [he] at ha
    cases ha
  | ok found =>
    rw [he] at ha
    dsimp only [Except.bind] at ha
    split at ha
    · rename_i maps
      cases ha
      refine List.foldlRecOn
        (motive := fun items : List Tree => ∀ service ∈ items, P (n + 3) service) _ _ h ?_
      intro items hi part hm
      exact layered_lay hP hi (hP.elements ht he part hm (List.all_eq_true.mp maps part hm))
    · cases ha

end SizeTemplate

namespace Contribution

open Tree

theorem layered_normalized (hP : Layered P) {service : Tree} (h : P (n + 2) service) :
    P (n + 2) (normalized service) :=
  hP.service (hP.get h "name") (hP.filter (hP.map_entries (hP.get h "spec")) _)
    (hP.list.mpr fun item hi => hP.items (hP.get h "resources") item (List.mem_filter.mp hi).1)

/-- What holds of the services and the modes of a draft, by induction on the services that are read:
one without a name, or with one that is known, changes nothing. -/
theorem outline_induction {motive : List Tree → Keyed String → Prop} (tenant : String)
    (spec : Tree)
    (start : motive [] (if (spec.get Mode.tenantWide).string = "" then []
      else [(Mode.tenantWide, (spec.get Mode.tenantWide).string)]))
    (take : ∀ services modes, motive services modes → ∀ service ∈ (spec.get "services").items,
      (service.get "name").string ≠ "" →
      motive (services ++ [normalized service])
        (if (service.get "managementStrategy").string = "" then modes
          else Keyed.insert modes (service.get "name").string
            (service.get "managementStrategy").string)) :
    motive (outline tenant spec).services (outline tenant spec).modes := by
  unfold outline
  dsimp only
  refine List.foldlRecOn
    (motive := fun draft => motive (Outline.services draft) (Outline.modes draft))
    _ _ start fun draft hd entry he => ?_
  unfold Outline.add
  dsimp only
  split
  · exact hd
  rename_i named
  split
  · exact hd
  · exact take _ _ hd entry.1 (List.fst_mem_of_mem_zipIdx he) named

variable (hP : Layered P) {templates : Option Tree}

include hP

theorem layered_outline (tenant : String) {spec : Tree} (h : P (n + 4) spec) :
    ∀ service ∈ (outline tenant spec).services, P (n + 2) service := by
  refine outline_induction
    (motive := fun services _ => ∀ service ∈ services, P (n + 2) service) tenant spec
    (by simp) fun services _ hs service hm _ other ho => ?_
  rcases List.mem_append.mp ho with ho | ho
  · exact hs other ho
  · rw [List.mem_singleton.mp ho]
    exact layered_normalized hP (hP.items (hP.get h "services") service hm)

theorem layered_templateFor {size : String} {template : Tree}
    (hb : P (n + 1) (.map SizeTemplate.builtin))
    (ht : ∀ tree, templates = some tree → P (n + 1) tree)
    (h : templateFor templates size = .ok template) : P n template := by
  unfold templateFor at h
  split at h
  · cases h
    exact hP.get hb _
  · cases h
    exact hP.get (ht _ rfl) _
  · cases h

/-- Every service that is read of a tenant is in the layer of the services that it lists. -/
theorem layered_read {object : Tree} {contribution : Contribution} (ho : P (n + 6) object)
    (hb : P (n + 5) (.map SizeTemplate.builtin))
    (ht : ∀ tree, templates = some tree → P (n + 5) tree)
    (h : (read templates object).outcome = .ok contribution) :
    ∀ service ∈ contribution.services, P (n + 3) service := by
  obtain ⟨map, copied⟩ := copied_of_read h
  rw [read_of_copied map copied] at h
  have outline : ∀ service ∈ (outlineOf object).services, P (n + 3) service :=
    layered_outline hP _ (hP.get ho "spec")
  simp only [Report.outcome_bind, Report.outcome_note, Except.bind] at h
  split at h
  · cases h
  rename_i services hs
  cases h
  unfold sized at hs
  split at hs
  · cases hs
    exact outline
  simp only [Report.outcome_bind, Report.outcome_ofExcept, Except.bind] at hs
  split at hs
  · cases hs
  rename_i template hf
  split at hs
  · cases hs
    exact outline
  · simp only [Report.outcome_bind, Report.outcome_ofExcept, Except.bind] at hs
    split at hs
    · cases hs
    · rename_i copy hc
      obtain ⟨-, rfl⟩ := Tree.copy_eq_ok hc
      exact SizeTemplate.layered_apply hP outline (layered_templateFor hP hb ht hf) hs

end Contribution

end TenantSizing
