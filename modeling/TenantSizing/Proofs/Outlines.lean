import TenantSizing.Contribution

namespace TenantSizing

namespace Contribution

/-- The kinds of a service's spec: the entries that are maps. -/
def kinds (service : Tree) : Entries :=
  (service.get "spec").entries.filter fun entry => entry.2.isMap

/-- The resource overrides of a service: the items that are maps. -/
def overrides (service : Tree) : List Tree :=
  (service.get "resources").items.filter Tree.isMap

/-- A service once its kinds and its overrides have been copied. -/
def normalized (service : Tree) : Tree :=
  .map [("name", service.get "name"), ("spec", .map (kinds service)),
    ("resources", .list (overrides service))]

/-- What is dropped from a service when it is normalized. -/
def dropped (place : String) (service : Tree) : List Notice :=
  let spec := service.get "spec"
  let resources := service.get "resources"
  (if spec.isNull || spec.isMap then [] else [.specNotAMap place]) ++
    (spec.entries.filter fun entry => !entry.2.isMap).map
      (fun entry => .kindNotAMap place entry.1) ++
    (if resources.isNull || resources.items?.isSome then [] else [.resourcesNotAList place]) ++
    (resources.items.zipIdx.filter fun item => !item.1.isMap).map
      (fun item => .resourceNotAMap place item.2)

/-- Every kind and every override of the service can be copied. -/
structure Copyable (service : Tree) : Prop where
  kinds : ∀ entry ∈ kinds service, entry.2.depth ≤ Tree.maxCopied
  overrides : ∀ item ∈ overrides service, item.depth ≤ Tree.maxCopied

/-- What reading a list of services comes to as long as everything can be copied. -/
structure Outline where
  services : List Tree
  modes : Keyed String
  notices : List Notice

def Outline.add (tenant : String) (outline : Outline) (entry : Tree × Nat) : Outline :=
  let (service, position) := entry
  let place := tenant ++ ": spec.services[" ++ toString position ++ "]"
  let name := (service.get "name").string
  let strategy := (service.get "managementStrategy").string
  if name = "" then { outline with notices := outline.notices ++ [.serviceUnnamed place] }
  else if (Services.find? outline.services (.text name)).isSome then
    { outline with notices := outline.notices ++ [.serviceRepeated place name] }
  else
    { services := outline.services ++ [normalized service]
      modes := if strategy = "" then outline.modes else Keyed.insert outline.modes name strategy
      notices := outline.notices ++ dropped place service }

def outline (tenant : String) (spec : Tree) : Outline :=
  let profile := (spec.get Mode.tenantWide).string
  let services := spec.get "services"
  let start : Outline :=
    { services := []
      modes := if profile = "" then [] else [(Mode.tenantWide, profile)]
      notices :=
        if services.isNull || services.items?.isSome then [] else [.servicesNotAList tenant] }
  services.items.zipIdx.foldl (Outline.add tenant) start

/-- How an object is named in notices. -/
def tenantOf (object : Tree) : String :=
  ((object.get "metadata").get "namespace").string ++ "/" ++
    ((object.get "metadata").get "name").string

def outlineOf (object : Tree) : Outline :=
  outline (tenantOf object) (object.get "spec")

section Copies

variable {α : Type} {values : List (α × Tree)} {notice : α → Notice} {place : String}
  {service : Tree}

theorem copyMaps_of_le
    (h : ∀ entry ∈ values.filter (·.2.isMap), entry.2.depth ≤ Tree.maxCopied) :
    copyMaps notice values = ⟨.ok (values.filter (·.2.isMap)),
      (values.filter (!·.2.isMap)).map (notice ·.1)⟩ := by
  induction values with
  | nil => rfl
  | cons entry rest ih =>
    obtain ⟨label, value⟩ := entry
    rw [copyMaps]
    cases hm : value.isMap with
    | true =>
      simp only [List.filter_cons, hm, if_true, List.forall_mem_cons] at h
      rw [Tree.copy_of_le h.1, ih h.2]
      exact Report.ext (by simp [hm, Except.bind]) (by simp [hm, Report.notices_bind])
    | false =>
      simp only [List.filter_cons, hm] at h
      rw [ih (by simpa using h)]
      exact Report.ext (by simp [hm, Except.bind]) (by simp [hm, Report.notices_bind])

theorem copyMaps_of_lt
    (h : ¬∀ entry ∈ values.filter (·.2.isMap), entry.2.depth ≤ Tree.maxCopied) :
    (copyMaps notice values).outcome = .error .tooDeep := by
  induction values with
  | nil => simp at h
  | cons entry rest ih =>
    obtain ⟨label, value⟩ := entry
    rw [copyMaps]
    cases hm : value.isMap with
    | true =>
      simp only [List.filter_cons, hm, if_true, List.forall_mem_cons, not_and] at h
      by_cases fits : value.depth ≤ Tree.maxCopied
      · simp [Tree.copy_of_le fits, ih (h fits), Except.bind]
      · simp [Tree.copy_of_lt (by omega : Tree.maxCopied < value.depth), Except.bind]
    | false =>
      simp only [List.filter_cons, hm] at h
      simp [ih (by simpa using h), Except.bind]

theorem kinds_normalized (service : Tree) : kinds (normalized service) = kinds service := by
  simp [kinds, normalized, Tree.get_map, Tree.entries]

theorem overrides_normalized (service : Tree) :
    overrides (normalized service) = overrides service := by
  simp [overrides, normalized, Tree.get_map, Tree.items]

theorem copyable_normalized : Copyable (normalized service) ↔ Copyable service := by
  constructor
  · intro h
    exact ⟨kinds_normalized service ▸ h.kinds, overrides_normalized service ▸ h.overrides⟩
  · intro h
    exact ⟨(kinds_normalized service).symm ▸ h.kinds,
      (overrides_normalized service).symm ▸ h.overrides⟩

/-- The items of a list with their positions in front. -/
theorem map_snd_filter_swap (items : List Tree) :
    ((items.zipIdx.map Prod.swap).filter (·.2.isMap)).map Prod.snd = items.filter Tree.isMap := by
  rw [List.filter_map, List.map_map]
  have fst : (items.zipIdx.filter fun item => item.1.isMap).map Prod.fst =
      (items.zipIdx.map Prod.fst).filter Tree.isMap := by
    rw [List.filter_map]
    rfl
  rw [List.zipIdx_map_fst] at fst
  exact fst

theorem normalize_of_copyable (h : Copyable service) :
    normalize place service = ⟨.ok (normalized service), dropped place service⟩ := by
  have overrides : ∀ entry ∈ ((service.get "resources").items.zipIdx.map Prod.swap).filter
      (·.2.isMap), entry.2.depth ≤ Tree.maxCopied := fun entry he =>
    h.overrides entry.2 (by
      rw [Contribution.overrides, ← map_snd_filter_swap]
      exact List.mem_map_of_mem he)
  unfold normalize
  dsimp only
  rw [copyMaps_of_le h.kinds, copyMaps_of_le overrides]
  refine Report.ext ?_ ?_
  · simp [Except.bind, normalized, map_snd_filter_swap, Contribution.overrides, kinds]
  · simp [Report.notices_bind, dropped, List.filter_map, Function.comp_def]

theorem normalize_of_deep (h : ¬Copyable service) :
    (normalize place service).outcome = .error .tooDeep := by
  unfold normalize
  dsimp only
  by_cases kinds : ∀ entry ∈ kinds service, entry.2.depth ≤ Tree.maxCopied
  · rw [copyMaps_of_le kinds]
    have overrides : ¬∀ entry ∈ ((service.get "resources").items.zipIdx.map Prod.swap).filter
        (·.2.isMap), entry.2.depth ≤ Tree.maxCopied := fun all => h ⟨kinds, fun item hi => by
      rw [Contribution.overrides, ← map_snd_filter_swap] at hi
      obtain ⟨entry, he, rfl⟩ := List.mem_map.mp hi
      exact all entry he⟩
    simp [copyMaps_of_lt overrides, Except.bind]
  · have deep : (copyMaps (Notice.kindNotAMap place) (service.get "spec").entries).outcome =
        .error .tooDeep := copyMaps_of_lt kinds
    simp [deep, Except.bind]

end Copies

namespace Outline

variable {tenant : String} {outline : Outline} {entry : Tree × Nat} {entries : List (Tree × Nat)}

def draft (outline : Outline) : Draft where
  services := outline.services
  modes := outline.modes

/-- Everything that has been read can be copied. -/
def Copied (outline : Outline) : Prop :=
  ∀ service ∈ outline.services, Copyable service

/-- An entry adds a service or none. -/
theorem services_add (tenant : String) (outline : Outline) (entry : Tree × Nat) :
    (outline.add tenant entry).services = outline.services ∨
      (outline.add tenant entry).services = outline.services ++ [normalized entry.1] := by
  unfold add
  dsimp only
  split
  · exact .inl rfl
  split
  · exact .inl rfl
  · exact .inr rfl

theorem Copied.of_add (h : (outline.add tenant entry).Copied) : outline.Copied := by
  intro service hs
  refine h service ?_
  rcases services_add tenant outline entry with same | more
  · exact same ▸ hs
  · rw [more]
    exact List.mem_append_left _ hs

theorem Copied.of_foldl (h : (entries.foldl (add tenant) outline).Copied) : outline.Copied := by
  induction entries generalizing outline with
  | nil => exact h
  | cons entry rest ih => exact (ih h).of_add

theorem add_of_copied (h : (outline.add tenant entry).Copied) :
    ∃ told, outline.draft.add tenant entry = ⟨.ok (outline.add tenant entry).draft, told⟩ ∧
      (outline.add tenant entry).notices = outline.notices ++ told := by
  unfold Draft.add
  dsimp only
  split
  · rename_i unnamed
    have same : outline.add tenant entry = { outline with notices := _ } := if_pos unnamed
    rw [same]
    exact ⟨_, rfl, rfl⟩
  rename_i named
  split
  · rename_i known
    have same : outline.add tenant entry = { outline with notices := _ } :=
      (if_neg named).trans (if_pos known)
    rw [same]
    exact ⟨_, rfl, rfl⟩
  · rename_i fresh
    have more : outline.add tenant entry =
        { services := outline.services ++ [normalized entry.1], modes := _, notices := _ } :=
      (if_neg named).trans (if_neg fresh)
    rw [more] at h ⊢
    have own : Copyable entry.1 := copyable_normalized.mp (h _ (List.mem_append_right _ (by simp)))
    rw [normalize_of_copyable own]
    exact ⟨dropped _ entry.1, Report.ext rfl (List.append_nil _), rfl⟩

theorem add_of_deep (held : outline.Copied) (h : ¬(outline.add tenant entry).Copied) :
    (outline.draft.add tenant entry).outcome = .error .tooDeep := by
  unfold Draft.add
  dsimp only
  split
  · rename_i unnamed
    have same : outline.add tenant entry = { outline with notices := _ } := if_pos unnamed
    rw [same] at h
    exact absurd held h
  rename_i named
  split
  · rename_i known
    have same : outline.add tenant entry = { outline with notices := _ } :=
      (if_neg named).trans (if_pos known)
    rw [same] at h
    exact absurd held h
  · rename_i fresh
    have more : outline.add tenant entry =
        { services := outline.services ++ [normalized entry.1], modes := _, notices := _ } :=
      (if_neg named).trans (if_neg fresh)
    have deep : ¬Copyable entry.1 := fun own => h fun service hs => by
      rw [more] at hs
      rcases List.mem_append.mp hs with hs | hs
      · exact held service hs
      · rw [List.mem_singleton.mp hs]
        exact copyable_normalized.mpr own
    simp [normalize_of_deep deep, Except.bind]

/-- Reading entries, by induction on them: the outline that comes of them tells whether all that is
read can be copied, since no service is taken away from it. -/
theorem foldlM_of_copied (h : (entries.foldl (add tenant) outline).Copied) :
    ∃ told, entries.foldlM (Draft.add tenant) outline.draft =
        ⟨.ok (entries.foldl (add tenant) outline).draft, told⟩ ∧
      (entries.foldl (add tenant) outline).notices = outline.notices ++ told := by
  induction entries generalizing outline with
  | nil => exact ⟨[], rfl, (List.append_nil _).symm⟩
  | cons entry rest ih =>
    have copied : (outline.add tenant entry).Copied := .of_foldl h
    obtain ⟨first, step, noticed⟩ := add_of_copied copied
    obtain ⟨later, steps, noticed'⟩ := ih h
    refine ⟨first ++ later, ?_, ?_⟩
    · rw [List.foldlM_cons, step]
      refine Report.ext ?_ ?_
      · rw [Report.outcome_bind]
        exact (congrArg Report.outcome steps :)
      · rw [Report.notices_bind]
        exact (congrArg (fun later => first ++ later.notices) steps :)
    · rw [List.foldl_cons, noticed', noticed, List.append_assoc]

theorem foldlM_of_deep (held : outline.Copied)
    (h : ¬(entries.foldl (add tenant) outline).Copied) :
    (entries.foldlM (Draft.add tenant) outline.draft).outcome = .error .tooDeep := by
  induction entries generalizing outline with
  | nil => exact absurd held h
  | cons entry rest ih =>
    rw [List.foldlM_cons, Report.outcome_bind]
    by_cases next : (outline.add tenant entry).Copied
    · obtain ⟨_, step, _⟩ := add_of_copied next
      rw [step]
      exact ih next h
    · rw [add_of_deep held next]
      rfl

end Outline

variable {tenant : String} {spec object : Tree} {templates : Option Tree}
  {contribution : Contribution}

theorem readServices_of_copied (h : (outline tenant spec).Copied) :
    readServices tenant spec =
      ⟨.ok (outline tenant spec).draft, (outline tenant spec).notices⟩ := by
  obtain ⟨told, read, noticed⟩ := Outline.foldlM_of_copied h
  unfold readServices
  dsimp only
  refine Report.ext ?_ ?_
  · rw [Report.outcome_bind]
    exact (congrArg Report.outcome read :)
  · rw [Report.notices_bind]
    exact (congrArg (fun later => _ ++ later.notices) read).trans noticed.symm

theorem readServices_of_deep (h : ¬(outline tenant spec).Copied) :
    (readServices tenant spec).outcome = .error .tooDeep := by
  unfold readServices
  rw [Report.outcome_bind]
  exact Outline.foldlM_of_deep (by simp [Outline.Copied]) h

/-- Where everything can be copied, a map is read by its outline. -/
theorem read_of_copied (map : object.isMap = true) (h : (outlineOf object).Copied) :
    read templates object = (do
      .note (outlineOf object).notices
      let services ← sized templates (tenantOf object) ((object.get "spec").get "size").string
        (outlineOf object).services
      pure
        { name := ((object.get "metadata").get "name").string
          space := ((object.get "metadata").get "namespace").string
          services, modes := (outlineOf object).modes }) := by
  have services : readServices (tenantOf object) (object.get "spec") = _ := readServices_of_copied h
  unfold read
  rw [if_pos map]
  dsimp only
  unfold tenantOf at services
  rw [services]
  rfl

theorem read_of_deep (map : object.isMap = true) (h : ¬(outlineOf object).Copied) :
    (read templates object).outcome = .error .tooDeep := by
  have services : (readServices (tenantOf object) (object.get "spec")).outcome = _ :=
    readServices_of_deep h
  unfold read
  rw [if_pos map, Report.outcome_bind]
  unfold tenantOf at services
  rw [services]
  rfl

/-- What has been read is a map, and all of it could be copied. -/
theorem copied_of_read (h : (read templates object).outcome = .ok contribution) :
    object.isMap = true ∧ (outlineOf object).Copied := by
  have map : object.isMap = true := by
    unfold read at h
    split at h
    · assumption
    · cases h
  refine ⟨map, Classical.byContradiction fun deep => ?_⟩
  rw [read_of_deep map deep] at h
  cases h

end Contribution

end TenantSizing
