import Rustkube.Request

namespace Rustkube

open Rbac

/-- What a request is for. -/
structure Target where
  group : String
  resource : String
  ns : Option String
  name : Option String
  subresource : Option String
deriving DecidableEq

/-- The arms of `parse_path_segments` below `/api/v1`. -/
def parseCoreSegments : List String → Option Target
  | "nodes" :: name :: "proxy" :: _ => some ⟨"", "nodes", none, some name, some "proxy"⟩
  | [resource] => some ⟨"", resource, none, none, none⟩
  -- a Namespace is read in itself
  | ["namespaces", name] => some ⟨"", "namespaces", some name, some name, none⟩
  | [resource, name] => some ⟨"", resource, none, some name, none⟩
  | ["namespaces", name, "status"] => some ⟨"", "namespaces", none, some name, some "status"⟩
  | ["namespaces", name, "finalize"] => some ⟨"", "namespaces", none, some name, some "finalize"⟩
  | ["namespaces", ns, resource] => some ⟨"", resource, some ns, none, none⟩
  | ["namespaces", ns, resource, name] => some ⟨"", resource, some ns, some name, none⟩
  | ["namespaces", ns, resource, name, sub] => some ⟨"", resource, some ns, some name, some sub⟩
  | [resource, name, sub] => some ⟨"", resource, none, some name, some sub⟩
  | _ => none

/-- Its arms below `/apis/{group}/{version}`. -/
def parseGroupSegments (group : String) : List String → Option Target
  | ["namespaces", ns, resource] => some ⟨group, resource, some ns, none, none⟩
  | ["namespaces", ns, resource, name] => some ⟨group, resource, some ns, some name, none⟩
  | ["namespaces", ns, resource, name, sub] => some ⟨group, resource, some ns, some name, some sub⟩
  | [resource] => some ⟨group, resource, none, none, none⟩
  -- a Project is its Namespace, and is authorized in it
  | [resource, name] =>
    if group = "project.openshift.io" ∧ resource = "projects" then
      some ⟨group, "projects", some name, some name, none⟩
    else some ⟨group, resource, none, some name, none⟩
  | [resource, name, sub] => some ⟨group, resource, none, some name, some sub⟩
  | _ => none

def parsePathSegments : List String → Option Target
  | "api" :: "v1" :: segments => parseCoreSegments segments
  | "apis" :: group :: _version :: segments => parseGroupSegments group segments
  | _ => none

def methodVerb (method : String) (named : Bool) : Option String :=
  if method = "GET" then some (if named then "get" else "list")
  else if method = "POST" then some "create"
  else if method = "PUT" then some "update"
  else if method = "PATCH" then some "patch"
  else if method = "DELETE" then some "delete"
  else none

/-- A shell, an attach or a port-forward is a `create`, whichever method opens it. -/
def streamVerb (target : Target) (verb : String) : String :=
  if target.group = "" ∧ target.resource = "pods" ∧
      (target.subresource = some "exec" ∨ target.subresource = some "attach" ∨
        target.subresource = some "portforward") then "create"
  else verb

def parseAuthorizationRequest (path method : String) : Option AuthorizationRequest := do
  let target ← parsePathSegments (Text.split (Text.trimStartMatches path '/') '/')
  let verb ← methodVerb method target.name.isSome
  let verb := streamVerb target verb
  -- only reading a Namespace is authorized in the namespace itself
  let ns := if target.group = "" ∧ target.resource = "namespaces" ∧ verb ≠ "get" then none
    else target.ns
  some ⟨verb, target.resource, target.subresource, target.group, ns, target.name⟩

/-- `/api/v1`, `/apis/{group}` and `/apis/{group}/{version}`, by their shape. -/
def isDiscoveryPath (path : String) : Bool :=
  if path = "/api/v1" then true
  else match Text.stripPrefix path "/apis/" with
    | none => false
    | some rest =>
      let rest := if Text.endsWith rest "/" then Text.dropLast rest else rest
      rest != "" && decide ((Text.split rest '/').length ≤ 2) && !Text.endsWith rest "/"

/-- What becomes of a request: it is passed on unasked, refused, or authorized. -/
inductive Access where
  | passed
  | forbidden
  | authorized (request : AuthorizationRequest)
deriving DecidableEq

/-- Health and the discovery documents. -/
def OPEN_PATHS : List String :=
  ["/healthz", "/livez", "/readyz", "/version", "/api", "/apis", "/api/", "/apis/"]

/-- A path under the API that has no reading is refused. -/
def rbacMiddleware (rbac : Option Engine) (user : User) (method path : String) : Access :=
  if OPEN_PATHS.contains path || (isDiscoveryPath path && method == "GET") then .passed
  else match parseAuthorizationRequest path method with
    | none =>
      if Text.startsWith path "/api/" || Text.startsWith path "/apis/" then .forbidden else .passed
    | some request =>
      if rbac.all fun engine => engine.authorize user request then .authorized request
      else .forbidden

theorem rbacMiddleware_authorized {rbac : Option Engine} {user : User} {method path : String}
    {request : AuthorizationRequest}
    (authorized : rbacMiddleware rbac user method path = .authorized request) :
    parseAuthorizationRequest path method = some request := by
  unfold rbacMiddleware at authorized
  cases parsed : parseAuthorizationRequest path method with
  | none =>
    rw [parsed] at authorized
    split_ifs at authorized
  | some found =>
    rw [parsed] at authorized
    dsimp only at authorized
    split_ifs at authorized
    cases authorized
    rfl

end Rustkube
