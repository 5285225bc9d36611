import TenantSizing.Merge.Fill
import TenantSizing.Services

namespace TenantSizing

namespace SizeTemplate

def sizes (cpu memory : String) : Tree :=
  .map [("cpu", .text cpu), ("memory", .text memory)]

def resources (limits requests : Tree) : Tree :=
  .map [("limits", limits), ("requests", requests)]

def service (name kind : String) (fields : Entries) : Tree :=
  .map [("name", .text name), ("spec", .map [(kind, .map fields)])]

def identity (replicas : Int) (auth : Entries) : Tree :=
  service "ibm-im-operator" "authentication" (("replicas", .int replicas) :: auth)

def webUI (replicas : Int) (rest : Entries) : Tree :=
  service "ibm-idp-config-ui-operator" "commonWebUI" (("replicas", .int replicas) :: rest)

def postgresql (instances : Int) : Tree :=
  service "common-service-postgresql" "cluster" [("instances", .int instances)]

def authService (limits requests : Tree) : Entries :=
  [("authService", .map [("resources", resources limits requests)])]

def builtin : Entries :=
  [("starterset", .list [identity 1 [], webUI 1 [], postgresql 1]),
    ("small", .list
      [identity 1 (authService (sizes "1000m" "1090Mi") (sizes "300m" "400Mi")),
        webUI 1 [("resources", resources (sizes "1000m" "512Mi") (sizes "300m" "256Mi"))],
        postgresql 2]),
    ("medium", .list
      [identity 2 (authService (sizes "1000m" "1090Mi") (sizes "600m" "550Mi")),
        webUI 2 [("resources", resources (sizes "1000m" "512Mi") (sizes "300m" "256Mi"))],
        postgresql 2]),
    ("large", .list
      [identity 3 (authService (sizes "2000m" "2Gi") (sizes "1000m" "1Gi")),
        webUI 3 [("resources", resources (sizes "2000m" "1Gi") (sizes "500m" "512Mi"))],
        postgresql 3])]

def named? (size : String) : Except Failure Tree :=
  match builtin.lookup size with
  | some template => .ok template
  | none => .error .wrongShape

/-- What a tenant that names a service but sets nothing asks for. -/
def emptyService (name : Tree) : Tree :=
  .map [("name", name), ("spec", .map []), ("resources", .list [])]

/-- Lays one service of a template under the services: the spec of the service of that name is
filled, or the template's service is put behind the others. -/
def lay (services : List Tree) (template : Tree) : List Tree :=
  let name := template.get "name"
  match Services.find? services name with
  | none => services ++ [template.fill (emptyService name)]
  | some current =>
    let spec :=
      ((template.get "spec").orElse (.map [])).fill ((current.get "spec").orElse (.map []))
    Services.set services name "spec" spec []

/-- Lays a template under the services, one of its services after the other. -/
def apply (services : List Tree) (template : Tree) : Except Failure (List Tree) :=
  template.elements?.bind fun parts =>
    if parts.all Tree.isMap then .ok (parts.foldl lay services) else .error .wrongShape

/-- The same for services that nobody has checked. -/
def applyTo (services template : Tree) : Except Failure Tree :=
  services.elements?.bind fun items => (apply items template).map .list

end SizeTemplate

end TenantSizing
