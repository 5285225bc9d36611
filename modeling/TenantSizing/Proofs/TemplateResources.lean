import TenantSizing.Proofs.NormalForms

namespace TenantSizing

open TenantSizing.Tree

namespace SizeTemplate

variable {services parts : List Tree} {part service laid : Tree} {name : String}

/-- A service with a template laid under: the spec is filled, and the resources stay. -/
structure Laid (parts : List Tree) (service laid : Tree) : Prop where
  alone : service.get "name" ∉ namesOf parts → laid = service
  spec : ∀ part ∈ parts, part.get "name" = service.get "name" →
    laid.get "spec" = (part.fill service).get "spec"
  resources : laid.get "resources" = service.get "resources"
  /-- Filling gives the same resources just where the template has none to add. -/
  merged : ∀ part ∈ parts, part.get "name" = service.get "name" →
    (laid.get "resources" = (part.fill service).get "resources" ↔
      (part.get "resources").fill (service.get "resources") = service.get "resources")

/-- A service that comes from a template as it is there. -/
structure Added (part laid : Tree) : Prop where
  name : laid.get "name" = part.get "name"
  spec : laid.get "spec" = part.get "spec"
  resources : ∀ items, part.get "resources" = .list items → laid.get "resources" = .list items

theorem get_fill (hp : part.isMap = true) (hs : service.isMap = true) (field : String) :
    (part.fill service).get field = (part.get field).fill (service.get field) :=
  placewise_fill.maps_get none part service hp hs field

theorem fill_map_nil (entries : Entries) : (Tree.map entries).fill (.map []) = .map entries := by
  rw [fill_maps]
  simp [Keyed.without]

theorem fill_list_nil (items : List Tree) : (Tree.list items).fill (.list []) = .list items := by
  rw [fill_lists]
  cases items <;> rfl

theorem laid_underlaid (distinct : (namesOf parts).Nodup)
    (hp : ∀ part ∈ parts, (part.get "spec").isMap = true) (hn : service.get "name" = .text name)
    (hs : (service.get "spec").isMap = true) : Laid parts service (underlaid parts service) := by
  have kept := get_underlaid parts service (show "resources" ≠ "spec" by decide)
  have own : service.isMap = true := isMap_of_get "name" (by rw [hn]; simp)
  refine ⟨fun missing => ?_, fun part hm title => ?_, kept, fun part hm title => ?_⟩
  · rw [underlaid_eq distinct hn, Services.entry_of_missing (hn ▸ missing)]
    exact if_neg (by rw [hn]; simp)
  · obtain ⟨under, hu⟩ := isMap_iff.mp (hp part hm)
    obtain ⟨above, ha⟩ := isMap_iff.mp hs
    have map : part.isMap = true := isMap_of_get "name" (by rw [title, hn]; simp)
    rw [underlaid_eq distinct hn, Services.entry_of_mem distinct hm (title.trans hn), layUnder,
      if_pos title.symm, get_insert, if_pos rfl, get_fill map own, hu, ha, orElse_map, orElse_map]
  · have map : part.isMap = true := isMap_of_get "name" (by rw [title, hn]; simp)
    rw [kept, get_fill map own]
    exact eq_comm

theorem added_fill (hn : part.get "name" = .text name) (hs : (part.get "spec").isMap = true) :
    Added part (part.fill (emptyService (part.get "name"))) := by
  have map : part.isMap = true := isMap_of_get "name" (by rw [hn]; simp)
  have fields : ∀ field, (part.fill (emptyService (part.get "name"))).get field =
      (part.get field).fill ((emptyService (part.get "name")).get field) := get_fill map rfl
  refine ⟨?_, ?_, fun items hi => ?_⟩
  · rw [get_name_fill hn, hn]
  · obtain ⟨kinds, hk⟩ := isMap_iff.mp hs
    rw [fields, hk]
    exact fill_map_nil kinds
  · rw [fields, hi]
    exact fill_list_nil items

end SizeTemplate

/-- A template fills the specs of the services that it names too, which keep their resources. Its
other services come behind them as they are in the template. -/
theorem templates_fill_specs (services parts : List Tree) (distinct : (namesOf services).Nodup)
    (hs : ∀ service ∈ services, Services.HasName service ∧ (service.get "spec").isMap = true ∧
      (service.get "resources").isList = true)
    (distinct_parts : (namesOf parts).Nodup)
    (hp : ∀ part ∈ parts, Services.HasName part ∧ (part.get "spec").isMap = true) :
    ∃ kept added, SizeTemplate.apply services (.list parts) = .ok (kept ++ added) ∧
      List.Forall₂ (SizeTemplate.Laid parts) services kept ∧
      List.Forall₂ SizeTemplate.Added
        (parts.filter fun part => part.get "name" ∉ namesOf services) added ∧
      ∀ part ∈ parts, part.get "resources" = .list [] → ∀ service ∈ services,
        part.get "name" = service.get "name" →
        (part.fill service).get "resources" = service.get "resources" := by
  have named : ∀ part ∈ parts, Services.HasName part := fun part hm => (hp part hm).1
  have maps : parts.all Tree.isMap = true := List.all_eq_true.mpr fun part hm => by
    obtain ⟨name, hn⟩ := named part hm
    exact isMap_of_get "name" (by rw [hn]; simp)
  let left := parts.filter fun part => part.get "name" ∉ namesOf services
  have inside : ∀ part ∈ left, part ∈ parts := fun part hm => (List.mem_filter.mp hm).1
  refine ⟨services.map (SizeTemplate.underlaid parts),
    left.map fun part => part.fill (SizeTemplate.emptyService (part.get "name")), ?_, ?_, ?_, ?_⟩
  · have alone : (namesOf left).Nodup := distinct_parts.sublist (List.filter_sublist.map _)
    simp only [SizeTemplate.apply, Tree.elements?, Except.bind, maps, if_true]
    rw [SizeTemplate.foldl_lay distinct named,
      SizeTemplate.foldl_lay_nil alone fun part hm => named part (inside part hm)]
  · refine forall₂_map_of_forall fun service hm => ?_
    obtain ⟨⟨name, hn⟩, spec, _⟩ := hs service hm
    exact SizeTemplate.laid_underlaid distinct_parts (fun part hm => (hp part hm).2) hn spec
  · refine forall₂_map_of_forall fun part hm => ?_
    obtain ⟨⟨name, hn⟩, spec⟩ := hp part (inside part hm)
    exact SizeTemplate.added_fill hn spec
  · intro part hm empty service hsm title
    obtain ⟨⟨name, hn⟩, _, list⟩ := hs service hsm
    obtain ⟨items, hi⟩ := isList_iff.mp list
    have part_map : part.isMap = true := isMap_of_get "name" (by rw [title, hn]; simp)
    have own_map : service.isMap = true := isMap_of_get "name" (by rw [hn]; simp)
    rw [SizeTemplate.get_fill part_map own_map, empty, hi, fill_lists]
    rfl

namespace Sample

def supplied : Tree :=
  .map [("name", .text "db"), ("spec", .map [("cluster", .map [("replicas", .int 2)])]),
    ("resources", .list [.map [("apiVersion", .text "v1"), ("kind", .text "ConfigMap"),
      ("name", .text "c")]])]

def unset (name : String) : Tree :=
  SizeTemplate.emptyService (.text name)

end Sample

theorem templates_fill_specs_supplied :
    ∃ kept added, SizeTemplate.apply [Sample.unset "db"]
        (.list [Sample.supplied, Sample.unset "web"]) = .ok (kept ++ added) ∧
      List.Forall₂ (SizeTemplate.Laid [Sample.supplied, Sample.unset "web"]) [Sample.unset "db"]
        kept ∧
      List.Forall₂ SizeTemplate.Added [Sample.unset "web"] added := by
  obtain ⟨kept, added, laid, merged, behind, -⟩ := templates_fill_specs [Sample.unset "db"]
    [Sample.supplied, Sample.unset "web"] (by decide)
    (fun service hm => by
      obtain rfl := List.mem_singleton.mp hm
      exact ⟨⟨"db", rfl⟩, rfl, rfl⟩)
    (by decide)
    fun part hm => by
      rcases List.mem_cons.mp hm with rfl | hm
      · exact ⟨⟨"db", rfl⟩, rfl⟩
      · obtain rfl := List.mem_singleton.mp hm
        exact ⟨⟨"web", rfl⟩, rfl⟩
  exact ⟨kept, added, laid, merged, behind⟩

/-- The resources of a template's service are lost on a tenant that names the service and leaves its
resources unset, though not on one that does not name it. -/
theorem template_resources_dropped :
    SizeTemplate.apply [Sample.unset "db"] (.list [Sample.supplied]) =
        .ok [.map [("name", .text "db"),
          ("spec", .map [("cluster", .map [("replicas", .int 2)])]), ("resources", .list [])]] ∧
      (Sample.supplied.fill (Sample.unset "db")).get "resources" =
        Sample.supplied.get "resources" ∧
      Sample.supplied.get "resources" ≠ .list [] ∧
      SizeTemplate.apply [] (.list [Sample.supplied]) = .ok [Sample.supplied] := by
  refine ⟨by rfl, by rfl, by decide, by rfl⟩

end TenantSizing
