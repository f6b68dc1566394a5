import Rustkube.Routes

namespace Rustkube

open Bool List Option Router Rbac Text

section

variable {route : Route} {segments : List String} {captured : Captures}

/-- The route taken by `segments`, with what it captured. -/
structure Taken (segments : List String) (route : Route) (captured : Captures) : Prop where
  found : Router.find Route.pattern routes segments = some route
  accepted : Router.accepts route.pattern segments = some captured

variable (taken : Taken segments route captured)

include taken

theorem Taken.mem : route ∈ routes := (mem_filter.mp (argmin_mem taken.found)).1

theorem Taken.ne_empty (direct : route.shape.isProxy = false) :
    ∀ segment ∈ segments, segment ≠ "" :=
  accepts_ne_empty (routes_solid route taken.mem direct) taken.accepted

theorem Taken.spelled (direct : route.shape.isProxy = false) :
    segments = route.head captured ++ route.below captured := by
  have ⟨tail, spelled, ends⟩ := accepts_route taken.accepted
  rcases ends with rfl | ⟨pieces, shape⟩
  · simpa using spelled
  · rw [shape] at direct
    cases direct

theorem Taken.listing_ne_finalize (base : route.base = .core)
    (shape : route.shape = .nsCollection) : route.resourceName captured ≠ "finalize" := by
  intro finalize
  have direct : route.shape.isProxy = false := by rw [shape]; rfl
  have spelled := taken.spelled direct
  have solid := taken.ne_empty direct
  have captures := routes_coreListing route taken.mem base shape
  simp only [Route.head, base, Route.below, shape, Shape.segments, finalize] at spelled
  have named : (captured.lookup "namespace").getD "" ≠ "" := solid _ (by simp [spelled])
  apply find_least taken.found
    (show (⟨.core, .part "finalize", some "namespaces"⟩ : Route) ∈ routes by decide +kernel)
  · rw [spelled]
    simp [Route.pattern, Route.basePieces, Route.shapePieces, Route.resourcePiece, accepts, named]
  · simp only [Route.pattern, base, shape, captures]
    decide

theorem Taken.part_ne_namespaces {sub : String} (shape : route.shape = .part sub)
    (captures : route.resource = none)
    (lists : (⟨route.base, .nsCollection, none⟩ : Route) ∈ routes) :
    route.resourceName captured ≠ "namespaces" := by
  intro namespaces
  have direct : route.shape.isProxy = false := by rw [shape]; rfl
  have spelled := taken.spelled direct
  have solid := taken.ne_empty direct
  simp only [Route.below, shape, Shape.segments, namespaces] at spelled
  have named : (captured.lookup "name").getD "" ≠ "" := solid _ (by simp [spelled])
  have parted : sub ≠ "" := solid _ (by simp [spelled])
  have head : ∀ segment ∈ route.head captured, segment ≠ "" :=
    fun segment member => solid segment (by simp [spelled, member])
  apply find_least taken.found lists
  · rw [spelled]
    unfold Route.head at head ⊢
    cases base : route.base with
    | core | builtIn =>
      simp [Route.pattern, Route.basePieces, Route.shapePieces, Route.resourcePiece,
        accepts, named, parted]
    | custom =>
      rw [base] at head
      simp [Route.pattern, Route.basePieces, Route.shapePieces, Route.resourcePiece,
        accepts, named, parted, head]
  · simp only [Route.pattern, shape, captures]
    cases route.base with
    | core => exact (by decide : ([0, 0, 0, 1, 1] : List Nat) < [0, 0, 1, 1, 0])
    | builtIn group version =>
      exact (by decide : ([0, 0, 0, 0, 1, 1] : List Nat) < [0, 0, 0, 1, 1, 0])
    | custom => exact (by decide : ([0, 1, 1, 0, 1, 1] : List Nat) < [0, 1, 1, 1, 1, 0])

end

/-- No CustomResourceDefinition is registered in a built-in group-version under the plural of
another group's resource, nor for what an approval would be read as. -/
structure CrdsApart (registered : String → String → String → Bool) : Prop where
  plural : ∀ group version resource other, registered group version resource = true →
    (advertised group version).isSome = true → owner resource = some other → other = group
  approval : registered "certificates.k8s.io" "v1" "approval" = false

section

variable {registered : String → String → String → Bool} {path group version resource : String}

theorem served_own (apart : CrdsApart registered) (serves : served registered path = true)
    (read : resourceOf path = some (group, version, resource))
    (lists : (advertised group version).isSome = true) (handled : group ∉ HANDLED_APART)
    (pods : ¬ (group = "policy" ∧ resource = "pods")) :
    ∀ other, owner resource = some other → other = group := by
  intro other owns
  have ⟨resources, listed⟩ := isSome_iff_exists.mp lists
  simp only [served, read, listed, or_eq_true, contains_iff_mem] at serves
  rcases serves with advertises | crd
  · have own := (advertised_own listed handled advertises).resolve_right pods
    exact some.inj (owns.symm.trans own)
  · exact apart.plural group version resource other crd lists owns

attribute [local simp] Shape.segments

theorem resourceBelow_shape {shape : Shape} {ns name : String} (direct : shape.isProxy = false)
    (part : ∀ sub, shape = .part sub → resource = "namespaces" → sub = "status" ∨ sub = "finalize")
    (listing : shape = .nsCollection → resource ≠ "status" ∧ resource ≠ "finalize") :
    resourceBelow (shape.segments resource ns name) = some resource := by
  cases shape with
  | collection | object =>
    by_cases same : resource = "namespaces"
    · rw [same]
      rfl
    · simp [resourceBelow, same]
  | part sub =>
    by_cases same : resource = "namespaces"
    · rw [same]
      rcases part sub rfl same with rfl | rfl
      · rfl
      · rfl
    · simp [resourceBelow, same]
  | nsCollection => simp [resourceBelow, listing rfl]
  | nsObject | nsPart => simp [resourceBelow]
  | proxy tail => cases direct

end

variable {path : String} {route : Route} {captured : Captures}

theorem head_cons (route : Route) (captured : Captures) :
    ∃ first later, route.head captured = first :: later ∧ first ≠ "" := by
  unfold Route.head
  cases route.base with
  | core => exact ⟨"api", _, rfl, by decide⟩
  | builtIn | custom => exact ⟨"apis", _, rfl, by decide⟩

theorem takes_ok (taking : takes path = some (route, captured)) :
    ∃ segments, Taken segments route captured ∧ split path '/' = "" :: segments ∧
      split (trimStartMatches path '/') '/' = segments := by
  obtain ⟨rest, strips, more⟩ := bind_eq_some_iff.mp taking
  obtain ⟨chosen, found, last⟩ := bind_eq_some_iff.mp more
  obtain ⟨captures, accepted, done⟩ := bind_eq_some_iff.mp last
  cases some.inj done
  obtain ⟨chars, starts, rfl⟩ := stripPrefix_char '/' strips
  refine ⟨_, ⟨found, accepted⟩, by simp [split, starts, splitChars], ?_⟩
  obtain ⟨tail, spelled, _⟩ := accepts_route accepted
  obtain ⟨first, later, heads, solid⟩ := head_cons route captured
  rw [heads] at spelled
  rw [trimStartMatches_of_cons starts spelled solid]

/-- The group-version of a base that is not captured. -/
def Base.version : Base → Option (String × String)
  | .core => some ("", "v1")
  | .builtIn group version => some (group, version)
  | .custom => none

theorem Taken.resourceOf_eq {segments : List String} {group version : String}
    (taken : Taken segments route captured) (direct : route.shape.isProxy = false)
    (splits : split path '/' = "" :: segments) (base : route.base.version = some (group, version)) :
    resourceOf path = (resourceBelow (route.below captured)).map (group, version, ·) := by
  have solid := taken.ne_empty direct
  have kept : ("" :: segments).filter (· ≠ "") = segments := by
    rw [filter_cons_of_neg (by simp)]
    exact filter_eq_self.mpr (by simpa using solid)
  unfold resourceOf
  rw [splits, kept, taken.spelled direct]
  unfold Route.head
  cases shape : route.base with
  | core | builtIn =>
    rw [shape] at base
    cases some.inj base
    rfl
  | custom =>
    rw [shape] at base
    cases base

section

variable {registered : String → String → String → Bool} {segments : List String}

/-- The path is not one that is read as a part of a Namespace. -/
structure Plain (route : Route) (captured : Captures) : Prop where
  part : ∀ sub, route.base ≠ .core → route.shape = .part sub →
    route.resourceName captured ≠ "namespaces"
  status : route.base = .core → route.shape = .nsCollection → route.resourceName captured ≠ "status"

theorem owner_namespaces : owner "namespaces" = some "" := by decide +kernel

theorem approval_unlisted :
    (advertised "certificates.k8s.io" "v1").all (fun list => !list.contains "approval") = true := by
  decide +kernel

variable (taken : Taken segments route captured)

include taken

theorem Taken.group_ne_empty (base : route.base ≠ .core) : route.group captured ≠ "" := by
  have direct : route.shape.isProxy = false := by
    by_contra proxy
    exact base (routes_proxy route taken.mem (by simpa using proxy)).1
  have solid := taken.ne_empty direct
  have spelled := taken.spelled direct
  unfold Route.group
  unfold Route.head at spelled
  cases shape : route.base with
  | core => exact absurd shape base
  | builtIn group version =>
    rw [shape] at spelled
    exact solid group (by simp [spelled])
  | custom =>
    rw [shape] at spelled
    exact solid _ (by simp [spelled])

theorem Taken.shape_ne_proxy (base : route.base ≠ .core) (pieces : List Piece) :
    route.shape ≠ .proxy pieces := by
  intro shape
  exact base (routes_proxy route taken.mem (by rw [shape]; rfl)).1

/-- What the authorizer reads off the path is what the route says, a Namespace in itself. -/
theorem Taken.parsed (plain : Plain route captured) :
    parsePathSegments segments = some (route.shape.target (route.group captured)
      (route.resourceName captured) ((captured.lookup "namespace").getD "")
      ((captured.lookup "name").getD "")).inItself := by
  have ⟨tail, spelled, ends⟩ := accepts_route taken.accepted
  by_cases core : route.base = .core
  · have regular := routes_part route taken.mem
    rw [spelled]
    simp only [Route.head, Route.group, Route.below, core]
    apply parseCoreSegments_shape ends
    · intro listing
      exact ⟨plain.status core listing, taken.listing_ne_finalize core listing⟩
    · intro sub shape _
      simpa [Route.partRegular, shape, core] using regular
    · intro pieces shape
      have literal := (routes_proxy route taken.mem (by rw [shape]; rfl)).2
      simp [Route.resourceName, literal]
  · have direct := taken.shape_ne_proxy core
    have named := taken.group_ne_empty core
    obtain rfl : tail = [] := ends.resolve_right fun ⟨pieces, shape⟩ => direct pieces shape
    rw [spelled, append_nil]
    cases base : route.base with
    | core => exact absurd base core
    | builtIn | custom =>
      simp only [Route.group, base] at named
      simp only [Route.head, Route.group, Route.below, base]
      exact parseGroupSegments_shape named (fun sub => plain.part sub core) direct

variable (apart : CrdsApart registered) (serves : served registered path = true)
  (splits : Text.split path '/' = "" :: segments)

include apart serves splits

theorem Taken.part_regular {sub : String} (base : route.base ≠ .core)
    (shape : route.shape = .part sub) : route.resourceName captured ≠ "namespaces" := by
  have regular := routes_part route taken.mem
  have direct : route.shape.isProxy = false := by rw [shape]; rfl
  unfold Route.partRegular at regular
  rw [shape] at regular
  cases kind : route.base with
  | core => exact absurd kind base
  | custom =>
    rw [kind] at regular
    apply taken.part_ne_namespaces shape (by simpa using regular)
    rw [kind]
    decide +kernel
  | builtIn group version =>
    simp only [kind, and_eq_true, or_eq_true, contains_iff_mem, beq_iff_eq,
      isNone_iff_eq_none] at regular
    obtain ⟨captures, listing | ⟨⟨only, rfl⟩, sub⟩⟩ := regular
    · exact taken.part_ne_namespaces shape captures (by rw [kind]; exact listing)
    · intro namespaces
      have read := taken.resourceOf_eq direct splits (by rw [kind]; rfl)
      simp only [Route.below, shape, Shape.segments, namespaces] at read
      rcases sub with rfl | ⟨rfl, rfl⟩
      · have listed : route.base.listed = true := by
          apply routes_listed route taken.mem
          simp [Route.byPlural, captures, kind]
        rw [kind, Base.listed_builtIn] at listed
        have same := served_own apart serves read listed.2 listed.1 (by simp) "" owner_namespaces
        rw [← same] at only
        exact absurd only (by decide)
      · obtain ⟨list, lists⟩ : ∃ list, advertised "certificates.k8s.io" "v1" = some list :=
          isSome_iff_exists.mp (by decide +kernel)
        have unlisted := approval_unlisted
        change resourceOf path = some ("certificates.k8s.io", "v1", "approval") at read
        simp [served, read, lists, apart.approval] at serves
        simp [lists, serves] at unlisted

/-- No listing in the namespaces of a built-in group is read as a Namespace's status or finalize. -/
theorem Taken.listing_regular {group version : String} (base : route.base = .builtIn group version)
    (listed : route.base.listed = true) (shape : route.shape = .nsCollection) :
    route.resourceName captured ≠ "status" ∧ route.resourceName captured ≠ "finalize" := by
  have direct : route.shape.isProxy = false := by rw [shape]; rfl
  have read := taken.resourceOf_eq direct splits (by rw [base]; rfl)
  have named := taken.group_ne_empty (by simp [base])
  rw [base, Base.listed_builtIn] at listed
  simp only [Route.group, base] at named
  have apartFrom : resourceOf path ≠ some (group, version, "namespaces") := by
    intro namespaces
    exact named (served_own apart serves namespaces listed.2 listed.1
      (by simp) "" owner_namespaces).symm
  simp only [Route.below, shape, Shape.segments] at read
  constructor
  · intro status
    rw [status] at read
    exact apartFrom read
  · intro finalize
    rw [finalize] at read
    exact apartFrom read

variable (pods : ∀ version, resourceOf path ≠ some ("policy", version, "pods"))

include pods

/-- What is kept under the plural of a route belongs to the route's group, or to none. -/
theorem Taken.plural_own (plain : Plain route captured) (plural : route.byPlural = true) :
    ∀ other, owner (route.resourceName captured) = some other → other = route.group captured := by
  have listed := routes_listed route taken.mem plural
  have regular := routes_part route taken.mem
  simp only [Route.byPlural, and_eq_true, isNone_iff_eq_none] at plural
  have direct : route.shape.isProxy = false := by
    by_contra proxy
    have literal := (routes_proxy route taken.mem (by simpa using proxy)).2
    rw [plural.1] at literal
    cases literal
  cases base : route.base with
  | custom => simp [base, Base.listed] at listed
  | core =>
    have below : resourceBelow (route.below captured) = some (route.resourceName captured) := by
      apply resourceBelow_shape direct
      · intro sub shape _
        simpa [Route.partRegular, shape, base] using regular
      · intro listing
        exact ⟨plain.status base listing, taken.listing_ne_finalize base listing⟩
    have read := taken.resourceOf_eq direct splits (by rw [base]; rfl)
    rw [below] at read
    have core : route.group captured = "" := by rw [Route.group, base]
    rw [core]
    exact served_own apart serves read (by decide +kernel) (by decide) (by simp)
  | builtIn group version =>
    have below : resourceBelow (route.below captured) = some (route.resourceName captured) := by
      apply resourceBelow_shape direct
      · intro sub shape namespaces
        exact absurd namespaces (plain.part sub (by simp [base]) shape)
      · exact taken.listing_regular apart serves splits base listed
    have read := taken.resourceOf_eq direct splits (by rw [base]; rfl)
    rw [below] at read
    rw [base, Base.listed_builtIn] at listed
    rw [Route.group, base]
    apply served_own apart serves read listed.2 listed.1
    rintro ⟨policy, resource⟩
    rw [map_some, policy, resource] at read
    exact pods version read

/-- What the handler acts on lies in the group of its route. -/
theorem Taken.target_eq
    (plain : Plain route captured) :
    route.target captured = route.shape.target (route.group captured)
      (route.resourceName captured) ((captured.lookup "namespace").getD "")
      ((captured.lookup "name").getD "") := by
  by_cases plural : route.byPlural = true
  · have own := taken.plural_own apart serves splits pods plain plural
    unfold Route.target
    cases owns : owner (route.resourceName captured) with
    | none => simp [owns]
    | some other => simp [owns, own other owns]
  · simp [Route.target, plural]

end

/-- How a request for the target is authorized: what is not a read of Namespaces cluster-wide, and a
Namespace or Project in itself. -/
def Target.request (target : Target) (verb : String) : AuthorizationRequest where
  verb := verb
  resource := target.resource
  subresource := target.subresource
  apiGroup := target.group
  ns := if target.group = "" ∧ target.resource = "namespaces" ∧ verb ≠ "get" then none
    else target.inItself.ns
  name := target.name

theorem parseAuthorizationRequest_eq {path method : String} {target : Target}
    {request : AuthorizationRequest}
    (read : parsePathSegments (split (trimStartMatches path '/') '/') = some target.inItself)
    (parses : parseAuthorizationRequest path method = some request) :
    request = target.request request.verb := by
  have whole : target.inItself.group = target.group ∧ target.inItself.resource = target.resource ∧
      target.inItself.subresource = target.subresource ∧ target.inItself.name = target.name := by
    unfold Target.inItself
    split_ifs <;> exact ⟨rfl, rfl, rfl, rfl⟩
  have ⟨found, reads, rest⟩ := bind_eq_some_iff.mp parses
  have ⟨verb, _, done⟩ := bind_eq_some_iff.mp rest
  cases some.inj (read.symm.trans reads)
  cases done
  simp only [Target.request, whole]

/-- The captures that say what a request is for. -/
def TARGET_NAMES : List String := ["group", "resource", "namespace", "name"]

/-- A path that spells what it is for without percent-encoding, and is neither read as the status of
a Namespace nor as the pods of `policy`. -/
structure RegularPath (path : String) : Prop where
  plain : ∀ route captured, takes path = some (route, captured) → ∀ name ∈ TARGET_NAMES,
    ∀ text, captured.lookup name = some text → Router.percentDecode text = some text
  status : ∀ name, Text.split path '/' ≠ ["", "api", "v1", "namespaces", name, "status"]
  pods : ∀ version, resourceOf path ≠ some ("policy", version, "pods")

theorem authorized_is_acted_on (registered : String → String → String → Bool)
    (rbac : Option Engine) (user : User) (method path : String) (request : AuthorizationRequest)
    (target : Target) (apart : CrdsApart registered) (regular : RegularPath path)
    (authorized : rbacMiddleware rbac user method path = .authorized request)
    (acting : acts registered path = some target) : request = target.request request.verb := by
  have parses := rbacMiddleware_authorized authorized
  unfold acts at acting
  split_ifs at acting with serves
  have ⟨⟨route, captured⟩, taking, rest⟩ := bind_eq_some_iff.mp acting
  have ⟨decoded, extracted, done⟩ := bind_eq_some_iff.mp rest
  have ⟨segments, taken, splits, trims⟩ := takes_ok taking
  have plain : Plain route captured := by
    refine ⟨fun sub => taken.part_regular apart serves splits, fun base shape same => ?_⟩
    apply regular.status ((captured.lookup "namespace").getD "")
    rw [splits, taken.spelled (by rw [shape]; rfl)]
    simp [Route.head, base, Route.below, shape, same]
  have spelled : route.target decoded = route.target captured := by
    have plain (name : String) (member : name ∈ TARGET_NAMES) :
        decoded.lookup name = captured.lookup name := by
      rw [extract_lookup extracted]
      cases found : captured.lookup name with
      | none => rfl
      | some text => exact regular.plain route captured taking name member text found
    unfold Route.target Route.resourceName Route.group
    rw [plain "group" (by decide), plain "resource" (by decide), plain "namespace" (by decide),
      plain "name" (by decide)]
  have same := taken.target_eq apart serves splits regular.pods plain
  rw [← spelled, some.inj done] at same
  have read := taken.parsed plain
  rw [← same, ← trims] at read
  exact parseAuthorizationRequest_eq read parses

def anybody : User := ⟨"alice", ["system:authenticated"]⟩

def grantAll : Engine := ⟨fun _ _ => true, fun _ _ _ _ _ => .ok ()⟩

def noCrds (_group _version _resource : String) : Bool := false

theorem noCrds_apart : CrdsApart noCrds := ⟨by simp [noCrds], rfl⟩

def deploymentPath : String := "/apis/apps/v1/namespaces/default/deployments/web"

theorem deploymentPath_regular : RegularPath deploymentPath := by
  have taking : takes deploymentPath = some (⟨.builtIn "apps" "v1", .nsObject, none⟩,
      [("namespace", "default"), ("resource", "deployments"), ("name", "web")]) := by
    decide +kernel
  have splits : split deploymentPath '/' =
      ["", "apis", "apps", "v1", "namespaces", "default", "deployments", "web"] := by
    decide +kernel
  constructor
  · intro route captured takes name member text found
    cases some.inj (taking.symm.trans takes)
    have plain : ∀ name ∈ TARGET_NAMES, (lookup name [("namespace", "default"),
        ("resource", "deployments"), ("name", "web")]).all
        (fun text => percentDecode text == some text) = true := by
      decide +kernel
    have here := plain name member
    rw [found] at here
    simpa using here
  · intro name
    rw [splits]
    simp
  · intro version
    have read : resourceOf deploymentPath = some ("apps", "v1", "deployments") := by decide +kernel
    rw [read]
    simp

theorem authorized_is_acted_on_deployment :
    rbacMiddleware (some grantAll) anybody "PUT" deploymentPath =
        .authorized ⟨"update", "deployments", none, "apps", some "default", some "web"⟩ ∧
      acts noCrds deploymentPath = some ⟨"apps", "deployments", some "default", some "web", none⟩ ∧
      (⟨"update", "deployments", none, "apps", some "default", some "web"⟩ :
          AuthorizationRequest) =
        Target.request ⟨"apps", "deployments", some "default", some "web", none⟩ "update" := by
  have authorized : rbacMiddleware (some grantAll) anybody "PUT" deploymentPath =
      .authorized ⟨"update", "deployments", none, "apps", some "default", some "web"⟩ := by
    decide +kernel
  have acting : acts noCrds deploymentPath =
      some ⟨"apps", "deployments", some "default", some "web", none⟩ := by
    decide +kernel
  exact ⟨authorized, acting, authorized_is_acted_on noCrds (some grantAll) anybody "PUT"
    deploymentPath _ _ noCrds_apart deploymentPath_regular authorized acting⟩

/-- A Namespace is read in itself. And where the path is percent-encoded, where it is that of the
status of a Namespace, and where it asks for the pods of `policy`, something else is authorized than
what the handler acts on. -/
theorem authorized_differs :
    (rbacMiddleware (some grantAll) anybody "GET" "/api/v1/namespaces/demo" =
        .authorized ⟨"get", "namespaces", none, "", some "demo", some "demo"⟩ ∧
      acts noCrds "/api/v1/namespaces/demo" = some ⟨"", "namespaces", none, some "demo", none⟩) ∧
    (rbacMiddleware (some grantAll) anybody "GET" "/api/v1/namespaces/kube%2Dsystem/secrets" =
        .authorized ⟨"list", "secrets", none, "", some "kube%2Dsystem", none⟩ ∧
      acts noCrds "/api/v1/namespaces/kube%2Dsystem/secrets" =
        some ⟨"", "secrets", some "kube-system", none, none⟩) ∧
    (rbacMiddleware (some grantAll) anybody "DELETE" "/api/v1/namespaces/demo/status" =
        .authorized ⟨"delete", "namespaces", some "status", "", none, some "demo"⟩ ∧
      acts noCrds "/api/v1/namespaces/demo/status" =
        some ⟨"", "status", some "demo", none, none⟩) ∧
    (rbacMiddleware (some grantAll) anybody "GET" "/apis/policy/v1/namespaces/demo/pods" =
        .authorized ⟨"list", "pods", none, "policy", some "demo", none⟩ ∧
      acts noCrds "/apis/policy/v1/namespaces/demo/pods" =
        some ⟨"", "pods", some "demo", none, none⟩) := by
  decide +kernel

end Rustkube
