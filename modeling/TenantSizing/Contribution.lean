import TenantSizing.Mode
import TenantSizing.Report
import TenantSizing.SizeTemplate
import TenantSizing.Tenant
import TenantSizing.Text.Lowercase
import TenantSizing.Tree.Depth

namespace TenantSizing

structure Contribution where
  name : String
  space : String
  services : List Tree
  modes : Keyed String
  deriving Repr

namespace Contribution

def key (contribution : Contribution) : String :=
  contribution.space ++ "/" ++ contribution.name

/-- Copies the maps among values. Each of the others is left out with a notice. -/
def copyMaps {α : Type} (notice : α → Notice) : List (α × Tree) → Report (List (α × Tree))
  | [] => pure []
  | (label, value) :: rest =>
    if value.isMap then do
      let copy ← .ofExcept value.copy
      let copies ← copyMaps notice rest
      pure ((label, copy) :: copies)
    else do
      .note [notice label]
      copyMaps notice rest

/-- A service as it takes part in a merge: of its kinds and of its resource overrides, the maps. -/
def normalize (place : String) (service : Tree) : Report Tree := do
  let spec := service.get "spec"
  .note (if spec.isNull || spec.isMap then [] else [.specNotAMap place])
  let kinds ← copyMaps (.kindNotAMap place) spec.entries
  let resources := service.get "resources"
  .note (if resources.isNull || resources.items?.isSome then [] else [.resourcesNotAList place])
  let overrides ← copyMaps (.resourceNotAMap place) (resources.items.zipIdx.map Prod.swap)
  pure (.map [("name", service.get "name"), ("spec", .map kinds),
    ("resources", .list (overrides.map Prod.snd))])

structure Draft where
  services : List Tree
  modes : Keyed String

/-- Reads one entry of the list. It needs a name of its own; only then its mode counts. -/
def Draft.add (tenant : String) (draft : Draft) (entry : Tree × Nat) : Report Draft :=
  let (service, position) := entry
  let place := tenant ++ ": spec.services[" ++ toString position ++ "]"
  let name := (service.get "name").string
  let strategy := (service.get "managementStrategy").string
  if name = "" then do
    .note [.serviceUnnamed place]
    pure draft
  else if (Services.find? draft.services (.text name)).isSome then do
    .note [.serviceRepeated place name]
    pure draft
  else do
    let normal ← normalize place service
    pure
      { services := draft.services ++ [normal]
        modes := if strategy = "" then draft.modes else Keyed.insert draft.modes name strategy }

def readServices (tenant : String) (spec : Tree) : Report Draft := do
  let profile := (spec.get Mode.tenantWide).string
  let services := spec.get "services"
  .note (if services.isNull || services.items?.isSome then [] else [.servicesNotAList tenant])
  services.items.zipIdx.foldlM (Draft.add tenant)
    { services := []
      modes := if profile = "" then [] else [(Mode.tenantWide, profile)] }

/-- The template of a size, null if there is none. Case is ignored. -/
def templateFor (templates : Option Tree) (size : String) : Except Failure Tree :=
  match templates with
  | none => .ok ((SizeTemplate.builtin.lookup (Text.lower size)).getD .null)
  | some (.map entries) => .ok ((entries.lookup (Text.lower size)).getD .null)
  | some _ => .error .wrongShape

/-- Lays the template of a tenant's size, if it names one, under its services. -/
def sized (templates : Option Tree) (tenant size : String) (services : List Tree) :
    Report (List Tree) :=
  if size = "" then pure services
  else do
    let template ← .ofExcept (templateFor templates size)
    if template.isNull then
      .note [.unknownSize tenant size]
      pure services
    else
      let template ← .ofExcept template.copy
      .ofExcept (SizeTemplate.apply services template)

/-- Reads what a CommonService asks for. No templates means the built-in ones. -/
def read (templates : Option Tree) (object : Tree) : Report Contribution :=
  if object.isMap then do
    let metadata := object.get "metadata"
    let spec := object.get "spec"
    let name := (metadata.get "name").string
    let space := (metadata.get "namespace").string
    let tenant := space ++ "/" ++ name
    let draft ← readServices tenant spec
    let services ← sized templates tenant (spec.get "size").string draft.services
    pure { name, space, services, modes := draft.modes }
  else .fail .wrongShape

end Contribution

end TenantSizing
