import Rustkube.Lib.Router
import Rustkube.PathAuthorization

namespace Rustkube

open Router List

/-- What a route lies below: `/api/v1`, the path of a group-version, or a captured one. -/
inductive Base where
  | core
  | builtIn (group version : String)
  | custom
deriving DecidableEq

/-- What a route says of the object. `ns` shapes lie below `namespaces/` and a captured namespace;
the name is captured. -/
inductive Shape where
  | collection
  | object
  | part (sub : String)
  | nsCollection
  | nsObject
  | nsPart (sub : String)
  | proxy (tail : List Piece)
deriving DecidableEq

def Shape.target (shape : Shape) (group resource ns name : String) : Target :=
  match shape with
  | .collection => ⟨group, resource, none, none, none⟩
  | .object => ⟨group, resource, none, some name, none⟩
  | .part sub => ⟨group, resource, none, some name, some sub⟩
  | .nsCollection => ⟨group, resource, some ns, none, none⟩
  | .nsObject => ⟨group, resource, some ns, some name, none⟩
  | .nsPart sub => ⟨group, resource, some ns, some name, some sub⟩
  | .proxy _ => ⟨group, resource, none, some name, some "proxy"⟩

/-- A resource that is not written in the route is captured. -/
structure Route where
  base : Base
  shape : Shape
  resource : Option String
deriving DecidableEq

namespace Route

def basePieces : Base → List Piece
  | .core => [.literal "api", .literal "v1"]
  | .builtIn group version => [.literal "apis", .literal group, .literal version]
  | .custom => [.literal "apis", .param "group", .param "version"]

def resourcePiece (resource : Option String) : Piece :=
  match resource with
  | some text => .literal text
  | none => .param "resource"

def shapePieces (resource : Piece) : Shape → List Piece
  | .collection => [resource]
  | .object => [resource, .param "name"]
  | .part sub => [resource, .param "name", .literal sub]
  | .nsCollection => [.literal "namespaces", .param "namespace", resource]
  | .nsObject => [.literal "namespaces", .param "namespace", resource, .param "name"]
  | .nsPart sub =>
    [.literal "namespaces", .param "namespace", resource, .param "name", .literal sub]
  | .proxy tail => resource :: .param "name" :: .literal "proxy" :: tail

def pattern (route : Route) : List Piece :=
  basePieces route.base ++ shapePieces (resourcePiece route.resource) route.shape

/-- Routes that capture the resource. -/
def each (base : Base) (shapes : List Shape) : List Route := shapes.map (⟨base, ·, none⟩)

/-- Routes of one resource, with handlers of its own. -/
def only (base : Base) (resource : String) (shapes : List Shape) : List Route :=
  shapes.map (⟨base, ·, some resource⟩)

end Route

def VMI_VERBS : List String := ["pause", "unpause", "softreboot", "freeze", "unfreeze"]

open Shape Route in
/-- The routes of `build_router` that lead to resources, which the discovery documents do not. -/
def routes : List Route :=
  let group name := Base.builtIn name "v1"
  only (.builtIn "metrics.k8s.io" "v1beta1") "nodes" [collection, object] ++
  only (.builtIn "metrics.k8s.io" "v1beta1") "pods" [collection, nsCollection, nsObject] ++
  each .core [collection, object] ++
  only .core "namespaces" [part "finalize"] ++
  each .core [nsCollection, nsObject] ++
  only .core "serviceaccounts" [nsPart "token"] ++
  each (group "apps") [nsCollection, nsObject, collection] ++
  each (group "batch") [nsCollection, nsObject, collection] ++
  each (group "coordination.k8s.io") [nsCollection, nsObject, collection] ++
  each (group "discovery.k8s.io") [nsCollection, nsObject, collection] ++
  only (group "events.k8s.io") "events" [nsCollection, nsObject, collection] ++
  each (group "storage.k8s.io") [collection, object, part "status", nsCollection, nsObject] ++
  each (group "resource.k8s.io") [collection, object, nsCollection, nsObject, nsPart "status"] ++
  each (group "policy") [nsCollection, nsObject, nsPart "status", collection] ++
  only .core "pods" [nsPart "eviction"] ++
  each (group "scheduling.k8s.io") [collection, object] ++
  each (group "rbac.authorization.k8s.io") [collection, object] ++
  each (group "certificates.k8s.io") [collection, object, part "approval", part "status"] ++
  each (group "rbac.authorization.k8s.io") [nsCollection, nsObject] ++
  each (.builtIn "rustkube.io" "v1alpha1") [nsCollection, nsObject, collection] ++
  each .core [part "status"] ++
  only (group "authentication.k8s.io") "selfsubjectreviews" [collection] ++
  only (group "authentication.k8s.io") "tokenreviews" [collection] ++
  only (group "authorization.k8s.io") "selfsubjectaccessreviews" [collection] ++
  only (group "authorization.k8s.io") "selfsubjectrulesreviews" [collection] ++
  only (group "authorization.k8s.io") "subjectaccessreviews" [collection] ++
  only (group "authorization.k8s.io") "localsubjectaccessreviews" [nsCollection] ++
  only (group "authorization.openshift.io") "subjectaccessreviews" [collection] ++
  only (group "authorization.openshift.io") "localsubjectaccessreviews" [nsCollection] ++
  only (group "authorization.openshift.io") "resourceaccessreviews" [collection] ++
  only (group "authorization.openshift.io") "localresourceaccessreviews" [nsCollection] ++
  only (group "subresources.kubevirt.io") "virtualmachineinstances"
    [nsPart "console", nsPart "vnc"] ++
  only (group "subresources.kubevirt.io") "virtualmachines"
    [nsPart "start", nsPart "stop", nsPart "restart", nsPart "migrate"] ++
  only (group "subresources.kubevirt.io") "virtualmachineinstances" [nsPart "migrate"] ++
  only (group "subresources.kubevirt.io") "virtualmachineinstances" (VMI_VERBS.map nsPart) ++
  only .core "nodes" [proxy [], proxy [.literal ""], proxy [.rest "path"]] ++
  only .core "pods" [nsPart "resize", nsPart "log", nsPart "exec", nsPart "attach",
    nsPart "portforward"] ++
  each .core [nsPart "status"] ++
  only .core "replicationcontrollers" [nsPart "scale"] ++
  each (group "apps") [nsPart "scale", nsPart "status"] ++
  each (group "batch") [nsPart "status"] ++
  only (group "autoscaling") "horizontalpodautoscalers"
    [collection, nsCollection, nsObject, nsPart "status"] ++
  each (.builtIn "autoscaling" "v2") [nsCollection, nsObject, nsPart "status", collection] ++
  only (group "project.openshift.io") "projects" [collection, object] ++
  only (group "project.openshift.io") "projectrequests" [collection] ++
  each (group "route.openshift.io") [nsCollection, nsObject, collection] ++
  each (group "networking.k8s.io")
    [nsCollection, nsObject, nsPart "status", collection, object, part "status"] ++
  each (group "admissionregistration.k8s.io") [collection, object, part "status"] ++
  each (group "node.k8s.io") [collection, object] ++
  each (group "flowcontrol.apiserver.k8s.io") [collection, object, part "status"] ++
  each (group "gateway.networking.k8s.io") [nsCollection, nsObject, collection, object] ++
  each (group "apiregistration.k8s.io") [collection, object] ++
  each .custom [collection, object, part "status", nsCollection, nsObject, nsPart "scale",
    part "scale", nsPart "status"]

/-- What the discovery document of a group-version lists: resources, and resources of which only
subresources are listed. -/
structure ApiList where
  group : String
  version : String
  resources : List String
  partsOnly : List String

def builtinLists : List ApiList := [
  ⟨"", "v1", ["namespaces", "nodes", "pods", "services", "endpoints", "podtemplates",
    "replicationcontrollers", "resourcequotas", "limitranges", "configmaps", "secrets",
    "serviceaccounts", "events", "persistentvolumeclaims", "persistentvolumes"], []⟩,
  ⟨"apps", "v1", ["deployments", "replicasets", "statefulsets", "daemonsets"], []⟩,
  ⟨"batch", "v1", ["jobs", "cronjobs"], []⟩,
  ⟨"coordination.k8s.io", "v1", ["leases"], []⟩,
  ⟨"discovery.k8s.io", "v1", ["endpointslices"], []⟩,
  ⟨"policy", "v1", ["poddisruptionbudgets"], ["pods"]⟩,
  ⟨"authorization.k8s.io", "v1", ["selfsubjectaccessreviews", "selfsubjectrulesreviews",
    "subjectaccessreviews", "localsubjectaccessreviews"], []⟩,
  ⟨"subresources.kubevirt.io", "v1", [], ["virtualmachineinstances", "virtualmachines"]⟩,
  ⟨"storage.k8s.io", "v1", ["storageclasses", "csidrivers", "csinodes", "volumeattachments",
    "csistoragecapacities", "volumeattributesclasses"], []⟩,
  ⟨"resource.k8s.io", "v1", ["deviceclasses", "resourceclaims", "resourceclaimtemplates",
    "resourceslices"], []⟩,
  ⟨"certificates.k8s.io", "v1", ["certificatesigningrequests"], []⟩,
  ⟨"rustkube.io", "v1alpha1", ["podmigrations"], []⟩,
  ⟨"rbac.authorization.k8s.io", "v1", ["clusterroles", "clusterrolebindings", "roles",
    "rolebindings"], []⟩,
  ⟨"apiextensions.k8s.io", "v1", ["customresourcedefinitions"], []⟩,
  ⟨"autoscaling", "v1", ["horizontalpodautoscalers"], []⟩,
  ⟨"autoscaling", "v2", ["horizontalpodautoscalers"], []⟩,
  ⟨"networking.k8s.io", "v1", ["networkpolicies", "ingresses", "ingressclasses", "servicecidrs",
    "ipaddresses"], []⟩,
  ⟨"route.openshift.io", "v1", ["routes"], []⟩,
  ⟨"scheduling.k8s.io", "v1", ["priorityclasses"], []⟩,
  ⟨"authentication.k8s.io", "v1", ["selfsubjectreviews", "tokenreviews"], []⟩,
  ⟨"project.openshift.io", "v1", ["projects", "projectrequests"], []⟩,
  ⟨"admissionregistration.k8s.io", "v1", ["mutatingwebhookconfigurations",
    "validatingwebhookconfigurations", "validatingadmissionpolicies",
    "validatingadmissionpolicybindings", "mutatingadmissionpolicies",
    "mutatingadmissionpolicybindings"], []⟩,
  ⟨"node.k8s.io", "v1", ["runtimeclasses"], []⟩,
  ⟨"authorization.openshift.io", "v1", ["subjectaccessreviews", "localsubjectaccessreviews",
    "resourceaccessreviews", "localresourceaccessreviews"], []⟩,
  ⟨"events.k8s.io", "v1", ["events"], []⟩,
  ⟨"metrics.k8s.io", "v1beta1", ["nodes", "pods"], []⟩,
  ⟨"flowcontrol.apiserver.k8s.io", "v1", ["flowschemas", "prioritylevelconfigurations"], []⟩,
  ⟨"gateway.networking.k8s.io", "v1", ["gatewayclasses", "gateways", "httproutes"], []⟩,
  ⟨"apiregistration.k8s.io", "v1", ["apiservices"], []⟩]

/-- The resources of a built-in group-version: the first segment of each entry. -/
def advertised (group version : String) : Option (List String) :=
  (builtinLists.find? fun list => list.group == group && list.version == version).map fun list =>
    list.resources ++ list.partsOnly

/-- The resource after the group-version, as `served::resource_of` reads it. -/
def resourceBelow : List String → Option String
  | [] => none
  | ["namespaces"] => some "namespaces"
  | ["namespaces", _] => some "namespaces"
  | ["namespaces", _, "status"] => some "namespaces"
  | ["namespaces", _, "finalize"] => some "namespaces"
  | "namespaces" :: _ :: resource :: _ => some resource
  | resource :: _ => some resource

-- Trimming the slashes first would drop no segment that the filter keeps.
def resourceOf (path : String) : Option (String × String × String) :=
  match (Text.split path '/').filter (· ≠ "") with
  | "api" :: version :: segments => (resourceBelow segments).map ("", version, ·)
  | "apis" :: group :: version :: segments => (resourceBelow segments).map (group, version, ·)
  | _ => none

/-- `served::check`, with the registered CustomResourceDefinitions: what a built-in group-version
does not serve is not found. -/
def served (registered : String → String → String → Bool) (path : String) : Bool :=
  match resourceOf path with
  | none => true
  | some (group, version, resource) =>
    match advertised group version with
    | none => true
    | some resources => resources.contains resource || registered group version resource

/-- The group whose objects are kept under a plural: that of the built-in which lists the plural
itself, the core first. -/
def owner (resource : String) : Option String :=
  (builtinLists.find? fun list => list.resources.contains resource).map ApiList.group

namespace Route

/-- The handlers of `resource.rs` know a resource by its plural alone; they serve the routes of
built-in groups that capture it. -/
def byPlural (route : Route) : Bool := route.resource.isNone && decide (route.base ≠ .custom)

def group (route : Route) (captured : Captures) : String :=
  match route.base with
  | .core => ""
  | .builtIn group _ => group
  | .custom => (captured.lookup "group").getD ""

def resourceName (route : Route) (captured : Captures) : String :=
  route.resource.getD ((captured.lookup "resource").getD "")

/-- What the handler acts on, by its route and captures. -/
def target (route : Route) (captured : Captures) : Target :=
  let resource := route.resourceName captured
  let group := route.group captured
  route.shape.target (if route.byPlural then (owner resource).getD group else group) resource
    ((captured.lookup "namespace").getD "") ((captured.lookup "name").getD "")

end Route

/-- The route a path takes, with what that captures of the path. -/
def takes (path : String) : Option (Route × Captures) := do
  let rest ← Text.stripPrefix path "/"
  let route ← Router.find Route.pattern routes (Text.split rest '/')
  let captured ← Router.accepts route.pattern (Text.split rest '/')
  some (route, captured)

/-- What the handler of a path acts on. A path that is not served, takes no route, or captures what
does not decode has none. -/
def acts (registered : String → String → String → Bool) (path : String) : Option Target :=
  if served registered path then do
    let (route, captured) ← takes path
    let decoded ← Router.extract captured
    some (route.target decoded)
  else none

/-- A Namespace or Project, as an object of its own: it is authorized in the namespace it is. -/
def Target.isNamespace (target : Target) : Bool :=
  target.ns.isNone && target.subresource.isNone &&
    (decide (target.group = "" ∧ target.resource = "namespaces") ||
      decide (target.group = "project.openshift.io" ∧ target.resource = "projects"))

def Target.inItself (target : Target) : Target :=
  if target.isNamespace then { target with ns := target.name } else target

variable {resource : String}

section

/-- The segments of a shape below its base. -/
def Shape.segments (shape : Shape) (resource ns name : String) : List String :=
  match shape with
  | .collection => [resource]
  | .object => [resource, name]
  | .part sub => [resource, name, sub]
  | .nsCollection => ["namespaces", ns, resource]
  | .nsObject => ["namespaces", ns, resource, name]
  | .nsPart sub => ["namespaces", ns, resource, name, sub]
  | .proxy _ => [resource, name, "proxy"]

attribute [simp] Shape.segments Shape.target Target.inItself Target.isNamespace

attribute [local simp] parseCoreSegments

theorem parseCoreSegments_shape {shape : Shape} {ns name : String} {tail : List String}
    (ends : tail = [] ∨ ∃ pieces, shape = .proxy pieces)
    (listed : shape = .nsCollection → resource ≠ "status" ∧ resource ≠ "finalize")
    (part : ∀ sub, shape = .part sub → resource = "namespaces" → sub = "status" ∨ sub = "finalize")
    (proxied : ∀ pieces, shape = .proxy pieces → resource = "nodes") :
    parseCoreSegments (shape.segments resource ns name ++ tail) =
      some (shape.target "" resource ns name).inItself := by
  cases shape with
  | proxy pieces =>
    rw [proxied pieces rfl]
    simp
  | object =>
    obtain rfl : tail = [] := by simpa using ends
    by_cases same : resource = "namespaces" <;> simp [same]
  | part sub =>
    obtain rfl : tail = [] := by simpa using ends
    by_cases same : resource = "namespaces"
    · subst same
      rcases part sub rfl rfl with rfl | rfl
      · rfl
      · rfl
    · by_cases proxy : resource = "nodes" ∧ sub = "proxy"
      · obtain ⟨rfl, rfl⟩ := proxy
        rfl
      · rw [not_and] at proxy
        simp [same]
  | nsCollection =>
    obtain rfl : tail = [] := by simpa using ends
    have other := listed rfl
    simp [other]
  | _ =>
    obtain rfl : tail = [] := by simpa using ends
    simp

attribute [local simp] parseGroupSegments

theorem parseGroupSegments_shape {shape : Shape} {group ns name : String}
    (named : group ≠ "") (part : ∀ sub, shape = .part sub → resource ≠ "namespaces")
    (proxied : ∀ pieces, shape ≠ .proxy pieces) :
    parseGroupSegments group (shape.segments resource ns name) =
      some (shape.target group resource ns name).inItself := by
  cases shape with
  | collection =>
    simp
  | object =>
    by_cases project : group = "project.openshift.io" ∧ resource = "projects"
    · simp [project]
    · simp [named, project]
  | part sub =>
    have other := part sub rfl
    simp [other]
  | proxy pieces => exact absurd rfl (proxied pieces)
  | _ => simp

end

section

variable {segments : List String} {captured : Captures}

variable {pieces : List Piece} {resource : Option String}

theorem accepts_resource
    (accepted : accepts (Route.resourcePiece resource :: pieces) segments = some captured) :
    ∃ later inner, segments = resource.getD ((captured.lookup "resource").getD "") :: later ∧
      accepts pieces later = some inner ∧ captured.lookup "name" = inner.lookup "name" := by
  cases resource with
  | some text =>
    have ⟨later, split, accepts⟩ := accepts_literal.mp accepted
    exact ⟨later, captured, split, accepts, rfl⟩
  | none =>
    obtain ⟨segment, later, inner, _, split, accepts, rfl⟩ := accepts_param.mp accepted
    exact ⟨later, inner, split, accepts, rfl⟩

theorem accepts_object
    (accepted : accepts (Route.resourcePiece resource :: .param "name" :: pieces) segments =
      some captured) :
    ∃ later inner, segments = resource.getD ((captured.lookup "resource").getD "") ::
        (captured.lookup "name").getD "" :: later ∧ accepts pieces later = some inner := by
  obtain ⟨rest, whole, rfl, named, name⟩ := accepts_resource accepted
  obtain ⟨segment, later, inner, _, rfl, accepts, rfl⟩ := accepts_param.mp named
  exact ⟨later, inner, by rw [name]; rfl, accepts⟩

theorem accepts_namespace
    (accepted : accepts (.literal "namespaces" :: .param "namespace" :: pieces) segments =
      some captured) :
    ∃ later inner, segments = "namespaces" :: (captured.lookup "namespace").getD "" :: later ∧
      accepts pieces later = some inner ∧
      captured.lookup "resource" = inner.lookup "resource" ∧
      captured.lookup "name" = inner.lookup "name" := by
  obtain ⟨rest, rfl, below⟩ := accepts_literal.mp accepted
  obtain ⟨segment, later, inner, _, rfl, accepts, rfl⟩ := accepts_param.mp below
  exact ⟨later, inner, rfl, accepts, rfl, rfl⟩

/-- A shape accepts its own segments, with what it captured in their place. -/
theorem accepts_shape {shape : Shape}
    (accepted : accepts (Route.shapePieces (Route.resourcePiece resource) shape) segments =
      some captured) :
    ∃ tail, segments = shape.segments (resource.getD ((captured.lookup "resource").getD ""))
        ((captured.lookup "namespace").getD "") ((captured.lookup "name").getD "") ++ tail ∧
      (tail = [] ∨ ∃ pieces, shape = .proxy pieces) := by
  cases shape with
  | collection =>
    obtain ⟨later, inner, rfl, ends, _⟩ := accepts_resource accepted
    obtain ⟨rfl, _⟩ := accepts_nil.mp ends
    exact ⟨[], rfl, .inl rfl⟩
  | object =>
    obtain ⟨later, inner, rfl, ends⟩ := accepts_object accepted
    obtain ⟨rfl, _⟩ := accepts_nil.mp ends
    exact ⟨[], rfl, .inl rfl⟩
  | part sub =>
    obtain ⟨later, inner, rfl, parted⟩ := accepts_object accepted
    obtain ⟨later, rfl, ends⟩ := accepts_literal.mp parted
    obtain ⟨rfl, _⟩ := accepts_nil.mp ends
    exact ⟨[], rfl, .inl rfl⟩
  | nsCollection =>
    obtain ⟨later, inner, rfl, below, resources, _⟩ := accepts_namespace accepted
    obtain ⟨later, inner, rfl, ends, _⟩ := accepts_resource below
    obtain ⟨rfl, _⟩ := accepts_nil.mp ends
    exact ⟨[], by rw [resources]; rfl, .inl rfl⟩
  | nsObject =>
    obtain ⟨later, inner, rfl, below, resources, names⟩ := accepts_namespace accepted
    obtain ⟨later, inner, rfl, ends⟩ := accepts_object below
    obtain ⟨rfl, _⟩ := accepts_nil.mp ends
    exact ⟨[], by rw [resources, names]; rfl, .inl rfl⟩
  | nsPart sub =>
    obtain ⟨later, inner, rfl, below, resources, names⟩ := accepts_namespace accepted
    obtain ⟨later, inner, rfl, parted⟩ := accepts_object below
    obtain ⟨later, rfl, ends⟩ := accepts_literal.mp parted
    obtain ⟨rfl, _⟩ := accepts_nil.mp ends
    exact ⟨[], by rw [resources, names]; rfl, .inl rfl⟩
  | proxy tail =>
    obtain ⟨later, inner, rfl, parted⟩ := accepts_object accepted
    obtain ⟨later, rfl, _⟩ := accepts_literal.mp parted
    exact ⟨later, rfl, .inr ⟨tail, rfl⟩⟩

end

section

variable {route : Route} {segments : List String} {captured : Captures}

/-- The segments of the base, and of what is below it. -/
def Route.head (route : Route) (captured : Captures) : List String :=
  match route.base with
  | .core => ["api", "v1"]
  | .builtIn group version => ["apis", group, version]
  | .custom =>
    ["apis", (captured.lookup "group").getD "", (captured.lookup "version").getD ""]

def Route.below (route : Route) (captured : Captures) : List String :=
  route.shape.segments (route.resourceName captured) ((captured.lookup "namespace").getD "")
    ((captured.lookup "name").getD "")

variable (accepted : Router.accepts route.pattern segments = some captured)

include accepted

theorem accepts_base :
    ∃ later inner, segments = route.head captured ++ later ∧
      accepts (Route.shapePieces (Route.resourcePiece route.resource) route.shape) later =
        some inner ∧
      ∀ name, name ≠ "group" → name ≠ "version" → captured.lookup name = inner.lookup name := by
  unfold Route.pattern at accepted
  unfold Route.head
  cases base : route.base with
  | core =>
    rw [base] at accepted
    obtain ⟨first, rfl, more⟩ := accepts_literal.mp accepted
    obtain ⟨later, rfl, below⟩ := accepts_literal.mp more
    exact ⟨later, captured, rfl, below, fun _ _ _ => rfl⟩
  | builtIn group version =>
    rw [base] at accepted
    obtain ⟨first, rfl, more⟩ := accepts_literal.mp accepted
    obtain ⟨second, rfl, most⟩ := accepts_literal.mp more
    obtain ⟨later, rfl, below⟩ := accepts_literal.mp most
    exact ⟨later, captured, rfl, below, fun _ _ _ => rfl⟩
  | custom =>
    rw [base] at accepted
    obtain ⟨first, rfl, more⟩ := accepts_literal.mp accepted
    obtain ⟨group, second, rest, _, rfl, most, rfl⟩ := accepts_param.mp more
    obtain ⟨version, later, inner, _, rfl, below, rfl⟩ := accepts_param.mp most
    refine ⟨later, inner, rfl, below, fun name notGroup notVersion => ?_⟩
    rw [lookup_cons_of_ne notGroup, lookup_cons_of_ne notVersion]

theorem accepts_route :
    ∃ tail, segments = route.head captured ++ (route.below captured ++ tail) ∧
      (tail = [] ∨ ∃ pieces, route.shape = .proxy pieces) := by
  obtain ⟨later, inner, rfl, below, same⟩ := accepts_base accepted
  obtain ⟨tail, rfl, ends⟩ := accepts_shape below
  refine ⟨tail, ?_, ends⟩
  unfold Route.below Route.resourceName
  rw [same "resource" (by decide) (by decide), same "namespace" (by decide) (by decide),
    same "name" (by decide) (by decide)]

end

/-- The groups whose routes all name their resource. -/
def HANDLED_APART : List String :=
  ["events.k8s.io", "metrics.k8s.io", "authorization.openshift.io", "subresources.kubevirt.io"]

/-- The groups with subresources of cluster-scoped objects and without namespaced ones. -/
def CLUSTER_ONLY : List String :=
  ["certificates.k8s.io", "admissionregistration.k8s.io", "flowcontrol.apiserver.k8s.io"]

def Shape.isProxy : Shape → Bool
  | .proxy _ => true
  | _ => false

theorem routes_solid : ∀ route ∈ routes, route.shape.isProxy = false →
    ∀ piece ∈ route.pattern, piece.solid = true := by
  decide +kernel

theorem routes_proxy : ∀ route ∈ routes, route.shape.isProxy = true →
    route.base = .core ∧ route.resource = some "nodes" := by
  decide +kernel

theorem routes_coreListing : ∀ route ∈ routes, route.base = .core → route.shape = .nsCollection →
    route.resource = none := by
  decide +kernel

/-- The routes to the subresources of cluster-scoped objects: those of the core are of a Namespace
or a status, and the other groups also list in namespaces, or are few. -/
def Route.partRegular (route : Route) : Bool :=
  match route.shape, route.base with
  | .part sub, .core => sub == "status" || sub == "finalize"
  | .part sub, .builtIn group version =>
    route.resource.isNone && (routes.contains ⟨route.base, .nsCollection, none⟩ ||
      (CLUSTER_ONLY.contains group && version == "v1" &&
        (sub == "status" || (group == "certificates.k8s.io" && sub == "approval"))))
  | .part _, .custom => route.resource.isNone
  | _, _ => true

theorem routes_part : ∀ route ∈ routes, route.partRegular = true := by decide +kernel

/-- The groups that are served by plural have their discovery list. -/
def Base.listed : Base → Bool
  | .core => true
  | .builtIn group version => !HANDLED_APART.contains group && (advertised group version).isSome
  | .custom => false

theorem Base.listed_builtIn {group version : String} : (builtIn group version).listed = true ↔
    group ∉ HANDLED_APART ∧ (advertised group version).isSome = true := by
  simp [listed]

theorem routes_listed : ∀ route ∈ routes, route.byPlural = true → route.base.listed = true := by
  decide +kernel

theorem builtinLists_own : ∀ list ∈ builtinLists, list.group ∈ HANDLED_APART ∨
    (∀ resource ∈ list.resources, owner resource = some list.group) ∧
      ∀ resource ∈ list.partsOnly, list.group = "policy" ∧ resource = "pods" := by
  decide +kernel

theorem advertised_own {group version : String} {resources : List String}
    (lists : advertised group version = some resources) (apart : group ∉ HANDLED_APART)
    (listed : resource ∈ resources) :
    owner resource = some group ∨ (group = "policy" ∧ resource = "pods") := by
  obtain ⟨list, found, rfl⟩ := Option.map_eq_some_iff.mp lists
  have keyed := find?_some found
  simp only [Bool.and_eq_true, beq_iff_eq] at keyed
  have own := builtinLists_own list (mem_of_find?_eq_some found)
  rw [keyed.1] at own
  have parts := own.resolve_left apart
  rcases mem_append.mp listed with whole | part
  · exact .inl (parts.1 resource whole)
  · exact .inr (parts.2 resource part)

end Rustkube
