import Rustkube.Apply

namespace Rustkube

open Json Storage

/-- What the defaults of its kind write into a new object: fields outside `metadata`, LimitRanger's
note in the annotations, and the labels of a ReplicationController that has none. -/
structure Defaulted where
  fields : Fields
  metadata : Fields
  outside : ∀ field ∈ fields, field.1 ≠ "metadata"
  noted : ∀ field ∈ metadata, field.1 ∈ ["annotations", "labels"]

/-- What a create takes from outside: the characters that end a generated name, the UUIDs of the
first and of the second `ensure_metadata`, the clock, and the verdict of `admit_create`'s checks
(namespace, limits, quota, the kind's own) with the defaults it sets. -/
structure Creation where
  suffix : String
  uid : String
  again : String
  now : String
  /-- The `status` that `establish_crd_status` gives a CustomResourceDefinition. -/
  established : Value → Value
  defaults : (resource : String) → (ns : Option String) → Value → Except ApiError Defaulted

/-- A create that no check refuses and no default touches. -/
def Creation.quiet : Creation where
  suffix := "x7k2b"
  uid := "0f6d1c2e-58a1-4c33-9f0e-2b7a64c1d9e5"
  again := "b3a9e7d4-1d0c-4b58-8e2f-7c5d90a1f6b2"
  now := "2026-01-01T00:00:00Z"
  established := id
  defaults _ _ _ := .ok ⟨[], [], by simp, by simp⟩

/-- The name a create stores the object under: its own, or a generated one. -/
def objectName (suffix : String) (body : Value) : Except Failure (String × Value) :=
  match body["metadata"]["name"].asStr?.filter (· ≠ "") with
  | some name => pure (name, body)
  | none =>
    match body["metadata"]["generateName"].asStr?.filter (· ≠ "") with
    | none => refuse .invalid "metadata.name or metadata.generateName is required"
    | some start => do
      let body ← orPanic (openMetadata body)
      let body ← orPanic (body.assignIn "metadata" "name" (.string (start ++ suffix)))
      pure (start ++ suffix, body)

/-- A create's body may leave the namespace to the URL, but not name another one. -/
def checkBodyNamespace (body : Value) : (ns : Option String) → Except Failure Unit
  | none => pure ()
  | some ns =>
    match (body["metadata"]["namespace"].asStr?.filter (· ≠ "")).filter (· ≠ ns) with
    | some other => refuse .badRequest ("the namespace of the provided object does not match " ++
        "the namespace sent on the request (" ++ other ++ " != " ++ ns ++ ")")
    | none => pure ()

def Defaulted.apply (defaulted : Defaulted) (obj : Value) : Value :=
  let obj := defaulted.fields.foldl (fun obj field => obj.insert field.1 field.2) obj
  defaulted.metadata.foldl
    (fun obj field => obj.insert "metadata" (obj["metadata"].insert field.1 field.2)) obj

def DEFAULTED : List String :=
  ["replicationcontrollers", "services", "pods", "persistentvolumeclaims", "persistentvolumes"]

/-- A new Namespace is active, unless it is created terminating. -/
def activate (terminating : Bool) (obj : Value) : Option Value :=
  if terminating then some obj
  else obj.assign "status" (.object [("phase", .string "Active")])

def namespaceDefaults (obj : Value) : Option Value := do
  let terminating := obj["metadata"]["deletionTimestamp"].isString
  let obj ← activate terminating obj
  let obj ← openField "spec" obj
  let finalizers := specFinalizers obj
  obj.assignIn "spec" "finalizers"
    (.array (if terminating then finalizers else withKubernetes finalizers))

def defaultNamespace (resource : String) (obj : Value) : Option Value :=
  if resource = "namespaces" then namespaceDefaults obj else some obj

/-- The built-in admission of a create. -/
def admitCreate (rules : KindRules) (given : Creation) (resource : String) (ns : Option String)
    (obj : Value) : Except Failure Value := do
  let obj := Quantity.numbersToStrings rules.canonical resource obj
  let obj ← orPanic (defaultNamespace resource obj)
  let defaulted ← orFail (given.defaults resource ns obj)
  let obj := if DEFAULTED.contains resource then defaulted.apply obj else obj
  pure (if resource = "secrets" then foldStringData rules.encode rules.text obj else obj)

section

variable (api : Api) (given : Creation) (ns : Option String)

/-- The steps every create takes: `metadata` filled in, built-in admission, the webhooks, `metadata`
filled in again, and what its handler still does to it. -/
def newObject (name : String) (builtin finish : Value → Except Failure Value) (draft : Value) :
    Except Failure Value := do
  let obj ← builtin (ensureMetadata given.uid given.now draft name ns)
  let obj ← api.admitWrite .create obj none
  finish (ensureMetadata given.again given.now obj name ns)

/-- `create_cluster_resource`, and `create_namespaced_resource` in `ns`. -/
def createResource (resource name : String) (draft : Value) : Except Failure Value :=
  newObject api given ns name (admitCreate api.rules given resource ns)
    (fun obj => pure (Generation.onCreate resource obj)) draft

/-- What a create under a strategy ends with. -/
def finishCreate (resource : String) (strategy : Strategy) (obj : Value) : Except Failure Value :=
  strategy.onCreate api.rules
    (if strategy = .builtIn then Generation.onCreate resource obj else obj)

/-- `crd_create_ns`, and `crd_create_cluster` of anything but a CRD. -/
def createCustom (resource name : String) (strategy : Strategy) (draft : Value) :
    Except Failure Value :=
  newObject api given ns name pure (finishCreate api resource strategy) draft

def validateCrdGroup (group : String) : Except Failure Unit :=
  if Text.contains group '.' then pure ()
  else refuse .invalid ("spec.group: Invalid value: \"" ++ group ++
    "\": should be a domain with at least one dot")

/-- A CRD's group must contain a dot, which keeps its objects' keys apart from the built-ins'. -/
def checkCrdWrite (name : String) (body : Value) : Except Failure Unit :=
  match body["spec"]["group"].asStr? with
  | some group => validateCrdGroup group
  | none => validateCrdGroup (((Text.splitOnce name '.').map Prod.snd).getD name)

/-- `crd_create_cluster` of a CRD. -/
def createDefinition (name : String) (draft : Value) : Except Failure Value :=
  newObject api given none name pure
    (fun obj => do
      checkCrdWrite name obj
      orPanic (obj.assign "status" (given.established obj))) draft

/-- The create of `patch_stored_object`, for an apply to an object that is missing. A cluster-scoped
one gets no built-in admission. -/
def createApplied (resource name : String) (strategy : Strategy) (draft : Value) :
    Except Failure Value :=
  newObject api given ns name
    (fun obj => if ns.isSome then admitCreate api.rules given resource ns obj else pure obj)
    (finishCreate api resource strategy) draft

/-- What such an apply asks to create. -/
def applied (codec : Patch.Codec) (params : Apply.Params) (body : Bytes) :
    Except Failure Value := do
  let applied ← Patch.orInvalid "invalid apply patch: " (codec.parseYaml body)
  Apply.serverSideApply (.object []) applied params.manager params.now true

def renameField (source target : String) (event : Fields) : Fields :=
  match event.get? source with
  | some value => Fields.insert target value (event.remove source)
  | none => event

/-- The same, unless the target is there already. -/
def fillField (source target : String) (event : Fields) : Fields :=
  match event.get? source with
  | some value =>
    let event := event.remove source
    if (event.get? target).isSome then event else Fields.insert target value event
  | none => event

/-- `source`, from `deprecatedSource` or else made of who reports. -/
def eventSource (controller : Option Value) (event : Fields) : Fields :=
  match event.get? "deprecatedSource" with
  | some source => Fields.insert "source" source (event.remove "deprecatedSource")
  | none =>
    let made : Fields := (controller.map fun value => ("component", value)).toList ++
      ((event.get? "reportingInstance").map fun value => ("host", value)).toList
    if made.isEmpty then event else Fields.insert "source" (.object made) event

/-- `series` folded into the core `count` and `lastTimestamp`. -/
def eventSeries (event : Fields) : Fields :=
  match event.get? "series" with
  | none => event
  | some series =>
    let event := match series.get? "count" with
      | some count => Fields.insert "count" count event
      | none => event
    match series.get? "lastObservedTime" with
    | some last =>
      if (event.get? "lastTimestamp").isSome then event
      else Fields.insert "lastTimestamp" last event
    | none => event

/-- An `events.k8s.io/v1` Event as the core Event that is stored. -/
def eventsToCore (event : Value) : Value := event.mapObject fun event =>
  let event := Fields.insert "kind" (.string "Event")
    (Fields.insert "apiVersion" (.string "v1") event)
  let event := renameField "note" "message" (renameField "regarding" "involvedObject" event)
  let controller := event.get? "reportingController"
  let event := eventSource controller (renameField "reportingController" "reportingComponent" event)
  let event := fillField "deprecatedCount" "count" (fillField "deprecatedLastTimestamp"
    "lastTimestamp" (fillField "deprecatedFirstTimestamp" "firstTimestamp" event))
  eventSeries event

def REQUESTER : String := "openshift.io/requester"

def DISPLAY_NAME : String := "openshift.io/display-name"

def DESCRIPTION : String := "openshift.io/description"

def ADMIN_BINDING : String := "admin"

/-- What a Project, or a ProjectRequest, says about its Namespace. -/
structure ProjectSpec where
  name : String
  labels : Value
  annotations : Value
  displayName : Option String
  description : Option String
  requester : Option String

/-- A Namespace name must be a DNS-1123 label. -/
def validateName (name : String) : Except Failure Unit :=
  let plain (char : Char) :
    Bool := ('a' ≤ char && char ≤ 'z') || Storage.isDigit char || char == '-'
  if name ≠ "" ∧ name.toList.length ≤ 63 ∧ name.toList.all plain ∧ !Text.startsWith name "-" ∧
      !Text.endsWith name "-" then pure ()
  else refuse .invalid
    ("Project \"" ++ name ++ "\" is invalid: metadata.name: must be a lowercase " ++
    "RFC 1123 label (a-z, 0-9 and '-', starting and ending alphanumeric, at most 63 characters)")

def isReserved (name : String) : Bool :=
  name == "default" || name == "openshift" || Text.startsWith name "kube-" ||
    Text.startsWith name "openshift-"

def ProjectSpec.checkReserved (project : ProjectSpec) : Except Failure Unit :=
  if project.requester.isSome && isReserved project.name then
    refuse .forbidden ("cannot request a project with the name \"" ++ project.name ++
      "\": names starting kube- or openshift-, and default, are reserved for the system")
  else pure ()

def ProjectSpec.annotated (project : ProjectSpec) : Fields :=
  let set (field : String) (text : Option String) (annotations : Fields) : Fields :=
    match text with
    | some text => Fields.insert field (.string text) annotations
    | none => annotations
  set REQUESTER project.requester (set DESCRIPTION (project.description.filter (· ≠ ""))
    (set DISPLAY_NAME (project.displayName.filter (· ≠ ""))
      (Fields.remove REQUESTER (project.annotations.asObject?.getD []))))

def projectNamespace (project : ProjectSpec) : Value :=
  let labels := project.labels.asObject?.getD []
  let annotations := project.annotated
  .object [("apiVersion", .string "v1"), ("kind", .string "Namespace"),
    ("metadata", .object (
      (if annotations.isEmpty then [] else [("annotations", .object annotations)]) ++
      (if labels.isEmpty then [] else [("labels", .object labels)]) ++
      [("name", .string project.name)])),
    ("spec", .object [])]

/-- The RoleBinding that makes `user` the admin of the Namespace. -/
def adminBinding (ns : String) (user : User) : Value :=
  let account := (Text.stripPrefix user.username "system:serviceaccount:").bind
    fun rest => Text.splitOnce rest ':'
  let subject : Value := match account with
    | some (home, name) => .object [("kind", .string "ServiceAccount"), ("name", .string name),
        ("namespace", .string home)]
    | none => .object [("apiGroup", .string "rbac.authorization.k8s.io"),
        ("kind", .string "User"), ("name", .string user.username)]
  .object [("apiVersion", .string "rbac.authorization.k8s.io/v1"),
    ("kind", .string "RoleBinding"),
    ("metadata", .object [("name", .string ADMIN_BINDING), ("namespace", .string ns)]),
    ("roleRef", .object [("apiGroup", .string "rbac.authorization.k8s.io"),
      ("kind", .string "ClusterRole"), ("name", .string "admin")]),
    ("subjects", .array [subject])]

/-- `storage.create`: only a key that is not there is written. -/
def ObjectStore.create (rules : KindRules) (store : ObjectStore) (key : String) (obj : Value) :
    Except Failure ObjectStore :=
  let stored := storedForm rules.canonical (metricResource key) obj
  match store.put key stored (some 0) with
  | .ok after => pure after
  | .error .conflict => refuse .alreadyExists (stored["kind"].asStr?.getD "resource" ++ " \"" ++
      stored["metadata"]["name"].asStr?.getD "unknown" ++ "\" already exists")
  | .error error => .error (.api (ApiError.ofStore error))

def clusterKey (resource name : String) : String := "/registry/" ++ resource ++ "/" ++ name

def namespacedKey (resource ns name : String) : String :=
  "/registry/" ++ resource ++ "/" ++ ns ++ "/" ++ name

end

/-- A request that makes a new object. A ProjectRequest is a `project` and then its `binding`. -/
inductive CreateRequest where
  | post (resource : String) (ns : Option String) (body : Value)
  | custom (storage resource : String) (ns : Option String) (strategy : Strategy) (body : Value)
  | definition (body : Value)
  | apply (storage resource name : String) (ns : Option String) (strategy : Strategy)
      (params : Apply.Params) (body : Bytes)
  | event (ns : String) (body : Value)
  | project (asked : ProjectSpec)
  | binding (ns : String) (user : User)

namespace CreateRequest

def storage : CreateRequest → String
  | .post resource _ _ => resource
  | .custom storage _ _ _ _ => storage
  | .definition _ => "customresourcedefinitions"
  | .apply storage _ _ _ _ _ _ => storage
  | .event _ _ => "events"
  | .project _ => "namespaces"
  | .binding _ _ => "rolebindings"

def ns : CreateRequest → Option String
  | .post _ ns _ => ns
  | .custom _ _ ns _ _ => ns
  | .definition _ => none
  | .apply _ _ _ ns _ _ _ => ns
  | .event ns _ => some ns
  | .project _ => none
  | .binding ns _ => some ns

def key (request : CreateRequest) (name : String) : String :=
  match request.ns with
  | some ns => namespacedKey request.storage ns name
  | none => clusterKey request.storage name

def posted (suffix : String) (ns : Option String) (body : Value) :
    Except Failure (String × Value) := do
  let (name, body) ← objectName suffix body
  checkBodyNamespace body ns
  pure (name, body)

/-- The object the request asks to create, and its name. -/
def draft (codec : Patch.Codec) (suffix : String) : CreateRequest → Except Failure (String × Value)
  | .post _ ns body => posted suffix ns body
  | .custom _ _ ns _ body => posted suffix ns body
  | .definition body => objectName suffix body
  | .apply _ _ name _ _ params body => do
    let obj ← applied codec params body
    pure (name, obj)
  | .event _ body => objectName suffix (eventsToCore body)
  | .project asked => do
    asked.checkReserved
    validateName asked.name
    pure (asked.name, projectNamespace asked)
  | .binding ns user => pure (ADMIN_BINDING, adminBinding ns user)

/-- The handler's way from there to what it stores. -/
def object (api : Api) (given : Creation) (name : String) (draft : Value) :
    CreateRequest → Except Failure Value
  | .post resource ns _ => createResource api given ns resource name draft
  | .custom _ resource ns strategy _ => createCustom api given ns resource name strategy draft
  | .definition _ => createDefinition api given name draft
  | .apply _ resource _ ns strategy _ _ =>
    createApplied api given ns resource name strategy draft
  | .event ns _ => pure (ensureMetadata given.uid given.now draft name (some ns))
  | .project _ => admitCreate api.rules given "namespaces" none
      (ensureMetadata given.uid given.now draft name none)
  | .binding ns _ => pure (ensureMetadata given.uid given.now draft name (some ns))

/-- Whether the webhooks see the object; those of an Event, a Project and its binding do not. -/
def hooked : CreateRequest → Bool
  | .post .. | .custom .. | .definition .. | .apply .. => true
  | .event .. | .project .. | .binding .. => false

/-- The built-in admission of a request the webhooks see. -/
def builtin (api : Api) (given : Creation) (request : CreateRequest) (obj : Value) :
    Except Failure Value :=
  match request with
  | .post resource ns _ => admitCreate api.rules given resource ns obj
  | .apply _ resource _ ns _ _ _ =>
    if ns.isSome then admitCreate api.rules given resource ns obj else pure obj
  | _ => pure obj

/-- The new object reaches the store. -/
def perform (api : Api) (codec : Patch.Codec) (given : Creation) (request : CreateRequest)
    (store : ObjectStore) : Except Failure (String × ObjectStore) := do
  let (name, draft) ← request.draft codec given.suffix
  let obj ← request.object api given name draft
  let after ← store.create api.rules (request.key name) obj
  pure (request.key name, after)

end CreateRequest

theorem ObjectStore.create_ok {rules : KindRules} {store after : ObjectStore} {key : String}
    {obj : Value} (created : store.create rules key obj = .ok after) :
    store.entries key = none ∧
      after = store.write key (storedForm rules.canonical (metricResource key) obj) := by
  unfold create at created
  dsimp only at created
  cases landed : store.put key (storedForm rules.canonical (metricResource key) obj) (some 0) with
  | ok stored =>
    rw [landed] at created
    rw [← pure_eq_ok.mp created]
    refine ⟨?_, (put_ok landed).2⟩
    have absent := expects_iff.mp (put_ok landed).1
    cases found : store.entries key with
    | none => rfl
    | some entry =>
      have stamp := (store.stamped key entry found).1
      rw [modRevision, found] at absent
      simp only at absent
      omega
  | error error =>
    rw [landed] at created
    cases error <;> simp at created

theorem CreateRequest.perform_ok {api : Api} {codec : Patch.Codec} {given : Creation}
    {request : CreateRequest} {store after : ObjectStore} {key : String}
    (performed : request.perform api codec given store = .ok (key, after)) :
    ∃ name draft obj, request.draft codec given.suffix = .ok (name, draft) ∧
      request.object api given name draft = .ok obj ∧ key = request.key name ∧
      store.entries key = none ∧
      after = store.write key (storedForm api.rules.canonical (metricResource key) obj) := by
  have ⟨⟨name, draft⟩, first, rest⟩ := bind_eq_ok.mp performed
  have ⟨obj, second, rest⟩ := bind_eq_ok.mp rest
  have ⟨stored, third, last⟩ := bind_eq_ok.mp rest
  cases pure_eq_ok.mp last
  exact ⟨name, draft, obj, first, second, rfl, ObjectStore.create_ok third⟩

end Rustkube
