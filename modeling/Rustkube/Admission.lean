import Mathlib.Data.List.Sort
import Rustkube.Selector
import Rustkube.CsrAdmission
import Rustkube.Requester

namespace Rustkube.Admission

open Json

section

open Pattern

structure Rule where
  operations : List String
  apiGroups : List String
  apiVersions : List String
  resources : List String
  scope : String
deriving DecidableEq

/-- `pods` is the resource alone, `pods/status` one subresource, `*` every resource and `*/*`
everything. -/
def resourceMatches (pattern resource subresource : String) : Bool :=
  let (res, sub) := (Text.splitOnce pattern '/').getD (pattern, "")
  wordAccepts res resource && wordAccepts sub subresource

def scopeMatches (scope : String) (namespaced : Bool) : Bool :=
  if scope = "Cluster" then !namespaced
  else if scope = "Namespaced" then namespaced
  else true

def Rule.matchesRequest (rule : Rule) (op : Operation) (request : RequestAttrs) : Bool :=
  rule.operations.any (wordAccepts · op.asStr) &&
  rule.apiGroups.any (wordAccepts · request.group) &&
  rule.apiVersions.any (wordAccepts · request.version) &&
  rule.resources.any (resourceMatches · request.resource (request.subresource.getD "")) &&
  scopeMatches rule.scope request.ns.isSome

/-- One webhook of a configuration, as admission uses it. Where it is reached (its URL or
Service, CA bundle and timeout) only shows in what a call of it answers. -/
structure Hook where
  name : String
  rules : List Rule
  failClosed : Bool
  namespaceSelector : Option Value
  objectSelector : Option Value
  sideEffects : String
  reviewVersions : List String
  reinvokeIfNeeded : Bool
deriving DecidableEq

/-- Absent and `{}` both select everything. -/
def parseSelector (selector : Value) : Option Value :=
  match selector.asObject? with
  | some [] => none
  | some _ => some selector
  | none => none

def parseRule (rule : Value) : Rule where
  operations := rule["operations"].strings
  apiGroups := rule["apiGroups"].strings
  apiVersions := rule["apiVersions"].strings
  resources := rule["resources"].strings
  scope := rule["scope"].asStr?.getD "*"

/-- A webhook without a name is passed over. -/
def parseWebhook (mutating : Bool) (w : Value) : Option Hook :=
  w["name"].asStr?.map fun name => {
    name
    rules := (w["rules"].asArray?.getD []).map parseRule
    failClosed := w["failurePolicy"].asStr? != some "Ignore"
    namespaceSelector := parseSelector w["namespaceSelector"]
    objectSelector := parseSelector w["objectSelector"]
    sideEffects := w["sideEffects"].asStr?.getD "Unknown"
    reviewVersions := w["admissionReviewVersions"].strings
    reinvokeIfNeeded := mutating && w["reinvocationPolicy"].asStr? == some "IfNeeded" }

/-- Every webhook of a stored configuration, in its order. -/
def parseConfiguration (config : Value) (mutating : Bool) : List Hook :=
  (config["webhooks"].asArray?.getD []).filterMap (parseWebhook mutating)

/-- `(generation, revision)` of a watch-cache snapshot. -/
abbrev SnapshotVersion := Nat × Nat

/-- What the reads of one kind of configuration answer while a write is admitted: the watch
cache's version, the hooks parsed at an earlier one, the cache's snapshot (each entry's bytes
parsed, if they parse), and the pages of the list that stands in for the cache. -/
structure ConfigReads where
  version : Option SnapshotVersion
  view : Option (SnapshotVersion × List Hook)
  snapshot : Option (List (String × Option Value))
  pages : List (Except ApiError (List Value × Bool))

def metadataName (object : Value) : Option String := object["metadata"]["name"].asStr?

/-- The configurations of the pages, up to the first that cannot be read. Another page follows
one whose flag is set. -/
def readPages : List (Except ApiError (List Value × Bool)) → List Value
  | .ok (items, true) :: rest => items ++ readPages rest
  | .ok (items, false) :: _ => items
  | .error _ :: _ => []
  | [] => []

/-- `sort_by` on `Option<&str>`: `None` first. -/
def nameLe : Option String → Option String → Bool
  | some left, some right => !decide (right < left)
  | some _, none => false
  | none, _ => true

def ConfigReads.listed (reads : ConfigReads) (mutating : Bool) : List Hook :=
  ((readPages reads.pages).insertionSort fun left right =>
    nameLe (metadataName left) (metadataName right)).flatMap (parseConfiguration · mutating)

/-- An entry of the snapshot that does not parse is passed over. -/
def ConfigReads.snapshotHooks (items : List (String × Option Value)) (mutating : Bool) :
    List Hook :=
  let configs := items.filterMap fun (key, object) => object.map (key, ·)
  (configs.insertionSort fun left right => ¬ right.1 < left.1).flatMap
    fun (_, config) => parseConfiguration config mutating

/-- The webhooks of one kind, configurations in name order: from the watch cache, or from the
store when the cache cannot answer. Configurations that cannot be read are none. -/
def ConfigReads.hooks (reads : ConfigReads) (mutating : Bool) : List Hook :=
  match reads.version with
  | none => reads.listed mutating
  | some version =>
    match reads.view.filter fun view => view.1 == version with
    | some view => view.2
    | none =>
      match reads.snapshot with
      | some items => ConfigReads.snapshotHooks items mutating
      | none => reads.listed mutating

/-- Why a webhook gave no answer: not called at all, or called and failed. -/
inductive CallError where
  | refused (error : ApiError)
  | failed (why : String)

/-- A webhook invoked on an object, and its `response`. -/
structure Called where
  hook : Hook
  object : Value
  response : Except CallError Value

/-- The `Display` and `Debug` forms that error texts quote. -/
structure Format where
  value : Value → String
  strings : List String → String
  text : Option String → String

/-- What a write being admitted meets: the answers of the store and of the watch cache, and for
each webhook call, counted from 0, the uid of its review and the body of the HTTP answer or why
there is none. `patched` decodes a webhook's patch and applies it. -/
structure World where
  mutating : ConfigReads
  validating : ConfigReads
  cachedNamespace : Option Value
  storedNamespace : Option Value
  uid : Nat → String
  answer : Nat → Hook → Value → Except String Value
  patched : String → Value → Except String Value
  format : Format

def labelsOf (object : Value) : Value :=
  match object["metadata"]["labels"] with
  | .object labels => .object labels
  | _ => .object []

/-- The labels of the request's namespace. One that cannot be read has none. -/
def World.namespaceLabels (world : World) : Value :=
  match world.cachedNamespace.or world.storedNamespace with
  | some ns => labelsOf ns
  | none => .object []

variable (request : RequestAttrs) (op : Operation) (old : Option Value)

/-- `None` for the `null` that stands for a DELETE's object. -/
def present (object : Value) : Option Value := if object.isNull then none else some object

def objectSelected (hook : Hook) (object : Value) : Bool :=
  match hook.objectSelector with
  | none => true
  | some selector => ((present object).toList ++ old.toList).any fun candidate =>
      Selector.matchesLabels selector (labelsOf candidate)

/-- The namespace's labels decide, or a Namespace's own; other cluster-scoped objects are never
filtered. -/
def namespaceSelected (labels : Value) (hook : Hook) (object : Value) : Bool :=
  match hook.namespaceSelector with
  | none => true
  | some selector =>
    match request.ns with
    | some _ => Selector.matchesLabels selector labels
    | none =>
      if request.resource = "namespaces" then
        Selector.matchesLabels selector
          (labelsOf (if object.isNull then old.getD object else object))
      else true

/-- Does `hook` want this request? Rules, then the selectors. -/
def hookMatches (labels : Value) (hook : Hook) (object : Value) : Bool :=
  hook.rules.any (fun rule => rule.matchesRequest op request) &&
  objectSelected old hook object && namespaceSelected request old labels hook object

/-- The `request` half of an AdmissionReview, without the fields derived from the object's
`apiVersion` and `kind`. -/
def reviewRequest (uid : String) (object : Value) (dryRun : Bool) : Value :=
  let typed := (present object).or old
  let name := request.name.or (typed.bind metadataName)
  let gvr : Value := .object [("group", .string request.group),
    ("resource", .string request.resource), ("version", .string request.version)]
  let base : Value := .object [
    ("dryRun", .bool dryRun),
    ("object", object),
    ("oldObject", old.getD .null),
    ("operation", .string op.asStr),
    ("options", .object [("apiVersion", .string "meta.k8s.io/v1"),
      ("kind", .string op.optionsKind)]),
    ("requestResource", gvr),
    ("resource", gvr),
    ("uid", .string uid),
    ("userInfo", .object [("groups", .array (request.user.groups.map .string)),
      ("username", .string request.user.username)])]
  let optional (field : String) (text : Option String) (review : Value) : Value :=
    match text with
    | some text => review.insert field (.string text)
    | none => review
  optional "namespace" request.ns (optional "name" name
    (optional "requestSubResource" request.subresource
      (optional "subResource" request.subresource base)))

variable (world : World)

/-- Send the AdmissionReview and return its `response`. -/
def invoke (n : Nat) (hook : Hook) (object : Value) : Except CallError Value :=
  let dryRun := request.dryRun && decide (op = .delete)
  if dryRun && !(["None", "NoneOnDryRun"].contains hook.sideEffects) then
    .error (.refused ⟨.badRequest,
      "admission webhook \"" ++ hook.name ++ "\" does not support dry run", none, none⟩)
  else if !hook.reviewVersions.isEmpty && !hook.reviewVersions.contains "v1" then
    .error (.failed ("webhook does not accept admission.k8s.io/v1 AdmissionReview (accepts " ++
      world.format.strings hook.reviewVersions ++ ")"))
  else
    let uid := world.uid n
    let review : Value := .object [("apiVersion", .string "admission.k8s.io/v1"),
      ("kind", .string "AdmissionReview"),
      ("request", reviewRequest request op old uid object dryRun)]
    match world.answer n hook review with
    | .error why => .error (.failed why)
    | .ok body =>
      let response := body["response"]
      if !response.isObject then
        .error (.failed "the AdmissionReview answer has no response")
      else if response["uid"].asStr? ≠ some uid then
        .error (.failed ("expected response.uid=" ++ world.format.text (some uid) ++ ", got " ++
          world.format.value response["uid"]))
      else .ok response

def nonempty (text : Option String) : Option String := text.filter (· ≠ "")

/-- The HTTP code a refusal states: an error's, 400 when it states none. -/
def deniedCode (status : Value) : Nat :=
  match status["code"].asInt? with
  | some code => if 400 ≤ code ∧ code ≤ 999 then code.toNat else 400
  | none => 400

def deniedReason (code : Nat) : String :=
  if code = 403 then "Forbidden"
  else if code = 422 then "Invalid"
  else if code = 409 then "Conflict"
  else "BadRequest"

/-- A refusal, in the webhook's words. -/
def denied (webhook : String) (status : Value) : ApiError :=
  let by_ := "admission webhook \"" ++ webhook ++ "\" denied the request"
  let reason := nonempty status["reason"].asStr?
  let message := match nonempty status["message"].asStr?, reason with
    | some message, _ => by_ ++ ": " ++ message
    | none, some reason => by_ ++ ": " ++ reason
    | none, none => by_ ++ " without explanation"
  let code := deniedCode status
  ⟨.stated code (reason.getD (deniedReason code)), message, none, none⟩

/-- A call that did not answer: refused under `failurePolicy: Fail`, passed over under `Ignore`. -/
def failed (hook : Hook) : CallError → Except Failure Unit
  | .refused error => .error (.api error)
  | .failed why =>
    if hook.failClosed then
      refuse .internalError
        ("Internal error occurred: failed calling webhook \"" ++ hook.name ++ "\": " ++ why)
    else pure ()

def allowed (response : Value) : Bool := response["allowed"].asBool? == some true

/-- What becomes of the write after one call. -/
def Called.verdict (called : Called) : Except Failure Unit :=
  match called.response with
  | .ok response =>
    if allowed response then pure () else .error (.api (denied called.hook.name response["status"]))
  | .error error => failed called.hook error

/-- The object and the calls made so far. -/
structure Progress where
  current : Value
  calls : List Called

def badPatch (hook : Hook) (why : String) : Except Failure Value :=
  refuse .internalError ("Internal error occurred: admission webhook \"" ++ hook.name ++
    "\" returned an invalid patch: " ++ why)

/-- A webhook's patch applied. One that cannot be is an error whatever the failure policy. -/
def applyPatch (hook : Hook) (response current : Value) : Except Failure Value :=
  match nonempty response["patch"].asStr? with
  | none => pure current
  | some patch =>
    if op = .delete then pure current
    else if response["patchType"].asStr? ≠ some "JSONPatch" then
      badPatch hook ("unsupported patchType " ++ world.format.text response["patchType"].asStr?)
    else
      match world.patched patch current with
      | .ok patched => pure patched
      | .error why => badPatch hook why

/-- The object after a call that let the write pass. -/
def respond (hook : Hook) (response : Except CallError Value) (current : Value) :
    Except Failure Value :=
  match response with
  | .ok response => applyPatch op world hook response current
  | .error _ => pure current

/-- Call a mutating webhook and apply its patch. -/
def mutate (hook : Hook) (progress : Progress) : Except Failure Progress := do
  let response := invoke request op old world progress.calls.length hook progress.current
  let called : Called := ⟨hook, progress.current, response⟩
  called.verdict
  let current ← respond op world hook response progress.current
  pure ⟨current, progress.calls ++ [called]⟩

def wants (hook : Hook) (object : Value) : Bool :=
  hookMatches request op old world.namespaceLabels hook object

/-- The mutating webhooks in order, and the `IfNeeded` ones among them with the object as each
left it. -/
def mutateAll : List Hook → Progress → Except Failure (Progress × List (Hook × Value))
  | [], progress => pure (progress, [])
  | hook :: rest, progress =>
    if wants request op old world hook progress.current then do
      let next ← mutate request op old world hook progress
      let (final, reinvoke) ← mutateAll rest next
      let again := if hook.reinvokeIfNeeded then [(hook, next.current)] else []
      pure (final, again ++ reinvoke)
    else mutateAll rest progress

/-- Once more for each webhook whose output a later one changed. -/
def reinvokeAll : List (Hook × Value) → Progress → Except Failure Progress
  | [], progress => pure progress
  | (hook, after) :: rest, progress =>
    if after ≠ progress.current ∧ wants request op old world hook progress.current then do
      let next ← mutate request op old world hook progress
      reinvokeAll rest next
    else reinvokeAll rest progress

def escalates : Bool :=
  request.group == "rbac.authorization.k8s.io" && request.subresource.isNone &&
    ["roles", "clusterroles", "rolebindings", "clusterrolebindings"].contains request.resource

def stampRequester (object : Value) : Value :=
  if request.group = Requester.GROUP then
    match op, old with
    | .create, _ => Requester.onCreate object request.user
    | .update, some stored => Requester.onUpdate object stored
    | _, _ => object
  else object

def admitCsr (object : Value) : Except Failure Value :=
  if request.group = CsrAdmission.GROUP ∧ request.resource = CsrAdmission.RESOURCE then
    CsrAdmission.admitWrite request op object old
  else pure object

def preventEscalation (object : Value) : Except Failure Unit :=
  match request.rbac with
  | some engine =>
    if escalates request then
      orFail (engine.confirm request.user request.resource request.ns object old)
    else pure ()
  | none => pure ()

/-- What the apiserver itself decides about an object once the mutating webhooks are done with
it: the requester stamp, CSR admission, then escalation prevention. -/
def afterMutating (object : Value) : Except Failure Value := do
  let object ← admitCsr request op old (stampRequester request op old object)
  preventEscalation request old object
  pure object

/-- A patch cannot move the object: its key was chosen by its name. -/
def keepIdentity (before current : Value) : Value :=
  let keep (field : String) (object : Value) : Value :=
    if before["metadata"][field].isString then
      object.insert "metadata" (object["metadata"].insert field before["metadata"][field])
    else object
  if current["metadata"].isObject then keep "namespace" (keep "name" current) else current

/-- The object the validating webhooks see. A DELETE has none to decide about. -/
def settle (object : Option Value) (current : Value) : Except Failure Value :=
  match object with
  | some before => do
    let current ← afterMutating request op old current
    pure (keepIdentity before current)
  | none => pure current

/-- The matching validating webhooks, each called on the object. -/
def validate (hooks : List Hook) (current : Value) (before : Nat) : List Called :=
  (hooks.filter fun hook => wants request op old world hook current).mapIdx fun i hook =>
    ⟨hook, current, invoke request op old world (before + i) hook current⟩

/-- The first refusal in order is the answer. -/
def verdicts : List Called → Except Failure Unit
  | [] => pure ()
  | called :: rest => do
    called.verdict
    verdicts rest

/-- What an admitted write goes on with, and the calls of mutating and of validating webhooks made
for it. -/
structure Admitted where
  object : Option Value
  mutations : List Called
  validations : List Called

def verbMatches (op : Operation) (verb : Verb) : Bool :=
  match op with
  -- server-side apply creates a missing object from a PATCH
  | .create => verb == .create || verb == .patch
  | .update => verb == .update || verb == .patch
  | .delete => verb == .delete

/-- Whether the write is of the object the request names. -/
def named (request : RequestAttrs) (object old : Option Value) : Bool :=
  match request.name, (object.or old).bind metadataName with
  | some name, some found => name == found
  | _, _ => true

def exempt (group : String) : Bool :=
  ["admissionregistration.k8s.io", "events.k8s.io"].contains group

/-- Run the mutating, then the validating webhooks over a write the request is making. `object`
is what will be stored, absent for a DELETE; `old` is what is stored now. -/
def admitWrite (world : World) (request : Option RequestAttrs) (op : Operation)
    (object old : Option Value) : Except Failure Admitted :=
  match request with
  | none => pure ⟨object, [], []⟩
  | some request =>
    if !verbMatches op request.verb || !named request object old || exempt request.group then
      pure ⟨object, [], []⟩
    else
      let mutating := world.mutating.hooks true
      let validating := world.validating.hooks false
      if mutating.isEmpty && validating.isEmpty then
        match object with
        | some object => do
          let object ← afterMutating request op old object
          pure ⟨some object, [], []⟩
        | none => pure ⟨none, [], []⟩
      else do
        let before := object.getD .null
        let (mutated, reinvoke) ← mutateAll request op old world mutating ⟨before, []⟩
        let mutated ← reinvokeAll request op old world reinvoke mutated
        let current ← settle request op old object mutated.current
        let called := validate request op old world validating current mutated.calls.length
        verdicts called
        pure ⟨object.map fun _ => current, mutated.calls, called⟩

/-- A cluster in which no webhook is configured and every read answers. -/
def World.quiet : World where
  mutating := ⟨some (1, 1), none, some [], []⟩
  validating := ⟨some (1, 1), none, some [], []⟩
  cachedNamespace := none
  storedNamespace := none
  uid n := toString n
  answer _ _ _ := .error "connection refused"
  patched _ object := .ok object
  format := ⟨fun _ => "", fun _ => "", fun _ => ""⟩

end

open List

/-- A write as the handlers hand it to `admit`: a DELETE has no object, a CREATE nothing stored. -/
inductive Write where
  | create (object : Value)
  | update (object old : Value)
  | delete (old : Value)

def Write.op : Write → Operation
  | .create _ => .create
  | .update _ _ => .update
  | .delete _ => .delete

def Write.object : Write → Option Value
  | .create object => some object
  | .update object _ => some object
  | .delete _ => none

def Write.old : Write → Option Value
  | .create _ => none
  | .update _ old => some old
  | .delete old => some old

/-- The object a webhook is asked about: what will be stored, `null` for a DELETE. -/
def Admitted.reviewed (admitted : Admitted) : Value := admitted.object.getD .null

/-- `hook` was called on `object` and allowed it. -/
def Allowed (validations : List Called) (hook : Hook) (object : Value) : Prop :=
  ∃ called ∈ validations, called.hook = hook ∧ called.object = object ∧
    ∃ response, called.response = .ok response ∧ allowed response = true

theorem verdicts_ok {calls : List Called} (passed : verdicts calls = .ok ()) :
    ∀ called ∈ calls, called.verdict = .ok () := by
  induction calls with
  | nil => simp
  | cons first rest ih =>
    have ⟨_, head, tail⟩ := bind_eq_ok.mp passed
    intro called member
    rcases mem_cons.mp member with rfl | later
    · exact head
    · exact ih tail called later

theorem Called.allowed_of_verdict {called : Called} (passed : called.verdict = .ok ())
    (closed : called.hook.failClosed = true) :
    ∃ response, called.response = .ok response ∧ allowed response = true := by
  unfold verdict at passed
  cases answered : called.response with
  | ok response =>
    refine ⟨response, rfl, ?_⟩
    simp only [answered] at passed
    by_contra refused
    simp [refused] at passed
  | error error =>
    cases error <;> simp [answered, failed, closed] at passed

variable {hook : Hook}

variable {request : RequestAttrs} {op : Operation} {old : Option Value} {world : World}
  {hooks : List Hook} {current : Value}

theorem exists_validate (before : Nat) (listed : hook ∈ hooks)
    (wanted : wants request op old world hook current = true) :
    ∃ called ∈ validate request op old world hooks current before,
      called.hook = hook ∧ called.object = current := by
  have kept : hook ∈ hooks.filter fun hook => wants request op old world hook current :=
    mem_filter.mpr ⟨listed, wanted⟩
  obtain ⟨i, inside, rfl⟩ := getElem_of_mem kept
  exact ⟨_, mem_mapIdx.mpr ⟨i, inside, rfl⟩, rfl, rfl⟩

theorem respond_delete {response : Except CallError Value} {current after : Value}
    (ran : respond .delete world hook response current = .ok after) : after = current := by
  cases response with
  | error error => exact (pure_eq_ok.mp ran).symm
  | ok response =>
    simp only [respond, applyPatch] at ran
    split at ran <;> exact (pure_eq_ok.mp ran).symm

variable {after progress : Progress} {reinvoke : List (Hook × Value)}

theorem mutate_delete (ran : mutate request .delete old world hook progress = .ok after) :
    after.current = progress.current := by
  have ⟨_, _, rest⟩ := bind_eq_ok.mp ran
  have ⟨current, responded, done⟩ := bind_eq_ok.mp rest
  rw [← pure_eq_ok.mp done]
  exact respond_delete responded

theorem mutateAll_delete
    (ran : mutateAll request .delete old world hooks progress = .ok (after, reinvoke)) :
    after.current = progress.current := by
  induction hooks generalizing progress after reinvoke with
  | nil =>
    have same : progress = after := congrArg Prod.fst (pure_eq_ok.mp ran)
    rw [same]
  | cons hook rest ih =>
    rw [mutateAll] at ran
    by_cases wanted : wants request .delete old world hook progress.current = true
    · rw [if_pos wanted] at ran
      have ⟨next, first, others⟩ := bind_eq_ok.mp ran
      have ⟨⟨final, kept⟩, later, done⟩ := bind_eq_ok.mp others
      have same : final = after := congrArg Prod.fst (pure_eq_ok.mp done)
      rw [← same]
      exact (ih later).trans (mutate_delete first)
    · rw [if_neg wanted] at ran
      exact ih ran

theorem reinvokeAll_delete
    (ran : reinvokeAll request .delete old world reinvoke progress = .ok after) :
    after.current = progress.current := by
  induction reinvoke generalizing progress with
  | nil => rw [pure_eq_ok.mp ran]
  | cons entry rest ih =>
    rw [reinvokeAll] at ran
    split_ifs at ran with again
    · have ⟨next, first, later⟩ := bind_eq_ok.mp ran
      exact (ih later).trans (mutate_delete first)
    · exact ih ran

variable {admitted : Admitted} {write : Write}

section

variable (ran : admitWrite world (some request) write.op write.object write.old = .ok admitted)

include ran

theorem admit_unnamed (name : named request write.object write.old = false) :
    admitted.validations = [] := by
  simp only [admitWrite, name, Bool.not_false, Bool.or_true, Bool.true_or, ↓reduceIte] at ran
  rw [← pure_eq_ok.mp ran]

variable (made : verbMatches write.op request.verb = true) (outside : exempt request.group = false)

include made outside

/-- A write that reached the webhooks: the calls of validating webhooks are those of `validate` on
the object that goes on to be stored, and none of them refused. -/
theorem admit_reached (name : named request write.object write.old = true) :
    ∃ before, admitted.validations = validate request write.op write.old world
        (world.validating.hooks false) admitted.reviewed before ∧
      verdicts admitted.validations = .ok () := by
  simp only [admitWrite, made, name, outside, Bool.not_true, Bool.or_self, Bool.false_eq_true,
    ↓reduceIte] at ran
  by_cases none_ : ((world.mutating.hooks true).isEmpty && (world.validating.hooks false).isEmpty) =
    true
  · -- nothing is configured: no call is made
    have empty : world.validating.hooks false = [] :=
      isEmpty_iff.mp (Bool.and_eq_true _ _ ▸ none_).2
    rw [if_pos none_] at ran
    refine ⟨0, ?_⟩
    cases write with
    | delete old =>
      rw [← pure_eq_ok.mp ran, empty]
      exact ⟨rfl, rfl⟩
    | create object | update object old =>
      have ⟨final, _, done⟩ := bind_eq_ok.mp ran
      rw [← pure_eq_ok.mp done, empty]
      exact ⟨rfl, rfl⟩
  · rw [if_neg none_] at ran
    have ⟨⟨mutated, reinvoke⟩, first, ran⟩ := bind_eq_ok.mp ran
    have ⟨again, second, ran⟩ := bind_eq_ok.mp ran
    have ⟨current, settled, ran⟩ := bind_eq_ok.mp ran
    have ⟨_, passed, done⟩ := bind_eq_ok.mp ran
    have reviewed : admitted.reviewed = current := by
      rw [← pure_eq_ok.mp done]
      cases write with
      | delete old =>
        rw [← pure_eq_ok.mp settled]
        exact ((reinvokeAll_delete second).trans (mutateAll_delete first)).symm
      | create | update => rfl
    refine ⟨again.calls.length, ?_, ?_⟩
    · rw [reviewed, ← pure_eq_ok.mp done]
    · rw [← pure_eq_ok.mp done]
      exact passed

/-- `hook` is of a stored configuration, does not ignore failures, and matches the request and the
object being written, under the labels its namespace is stored with. -/
def Required (stored : List Value) (labels : Value) (request : RequestAttrs) (write : Write)
    (object : Value) (hook : Hook) : Prop :=
  (∃ config ∈ stored, hook ∈ parseConfiguration config false) ∧ hook.failClosed = true ∧
    hookMatches request write.op write.old labels hook object = true

/-- The dispatcher reaches a webhook when the write is of the object the request names, and the
webhook is among the configurations that could be read and matches under the labels that could. -/
def Reached (world : World) (request : RequestAttrs) (write : Write) (object : Value)
    (hook : Hook) : Prop :=
  named request write.object write.old = true ∧ hook ∈ world.validating.hooks false ∧
    wants request write.op write.old world hook object = true

theorem Reached.of_allowed (allowed : Allowed admitted.validations hook admitted.reviewed) :
    Reached world request write admitted.reviewed hook := by
  obtain ⟨called, member, rfl, _, _⟩ := allowed
  cases name : named request write.object write.old with
  | false =>
    rw [admit_unnamed ran name] at member
    cases member
  | true =>
    have ⟨before, calls, _⟩ := admit_reached ran made outside name
    rw [calls] at member
    obtain ⟨i, inside, rfl⟩ := mem_mapIdx.mp member
    have kept := mem_filter.mp (getElem_mem inside)
    exact ⟨name, kept.1, kept.2⟩

theorem Reached.allowed (reached : Reached world request write admitted.reviewed hook)
    (closed : hook.failClosed = true) : Allowed admitted.validations hook admitted.reviewed := by
  have ⟨name, listed, wanted⟩ := reached
  have ⟨before, calls, passed⟩ := admit_reached ran made outside name
  obtain ⟨called, member, rfl, object⟩ := exists_validate before listed wanted
  rw [← calls] at member
  have verdict := verdicts_ok passed called member
  exact ⟨called, member, rfl, object, called.allowed_of_verdict verdict closed⟩

end

/-- An admitted write passed every webhook that had to be asked exactly when the dispatcher reached
each of them. -/
theorem admit_enforces_iff (world : World) (request : RequestAttrs) (write : Write)
    (stored : List Value) (labels : Value) (admitted : Admitted)
    (made : verbMatches write.op request.verb = true) (outside : exempt request.group = false)
    (ran : admitWrite world (some request) write.op write.object write.old = .ok admitted) :
    (∀ hook, Required stored labels request write admitted.reviewed hook →
        Allowed admitted.validations hook admitted.reviewed) ↔
      ∀ hook, Required stored labels request write admitted.reviewed hook →
        Reached world request write admitted.reviewed hook := by
  constructor
  · intro enforced hook required
    exact Reached.of_allowed ran made outside (enforced hook required)
  · intro reached hook required
    exact (reached hook required).allowed ran made outside required.2.1

/-- The object of a `pods/eviction` CREATE: the body, if it is JSON. -/
def evictionObject (ns name : String) (body : Option Value) : Value :=
  body.getD (.object [("apiVersion", .string "policy/v1"), ("kind", .string "Eviction"),
    ("metadata", .object [("name", .string name), ("namespace", .string ns)])])

/-- One webhook, for every eviction in a namespace labelled `guarded`. -/
def evictionGuard : Value := .object [
  ("metadata", .object [("name", .string "guard")]),
  ("webhooks", .array [.object [
    ("failurePolicy", .string "Fail"),
    ("name", .string "guard.example.com"),
    ("namespaceSelector", .object [("matchLabels", .object [("guarded", .string "true")])]),
    ("rules", .array [.object [
      ("apiGroups", .array [.string ""]), ("apiVersions", .array [.string "v1"]),
      ("operations", .array [.string "CREATE"]),
      ("resources", .array [.string "pods/eviction"])]])]])]

def guardedNamespace : Value := .object [("metadata", .object [
  ("labels", .object [("guarded", .string "true")]), ("name", .string "default")])]

/-- Everything can be read, and the webhook answers `verdict`. -/
def evictionWorld (verdict : Bool) : World where
  mutating := ⟨some (1, 7), none, some [], []⟩
  validating := ⟨some (1, 7), none,
    some [("/registry/validatingwebhookconfigurations/guard", some evictionGuard)], []⟩
  cachedNamespace := some guardedNamespace
  storedNamespace := some guardedNamespace
  uid n := toString n
  answer _ _ review := .ok (.object [("response", .object [("allowed", .bool verdict),
    ("uid", review["request"]["uid"])])])
  patched _ object := .ok object
  format := ⟨fun _ => "", fun _ => "", fun _ => ""⟩

/-- `POST /api/v1/namespaces/default/pods/web/eviction` -/
def evictionRequest : RequestAttrs where
  user := ⟨"alice", ["system:authenticated"]⟩
  verb := .create
  group := ""
  version := "v1"
  resource := "pods"
  subresource := some "eviction"
  ns := some "default"
  name := some "web"
  dryRun := false
  rbac := none

def evictionNaming (name : String) : Value := .object [("apiVersion", .string "policy/v1"),
  ("kind", .string "Eviction"), ("metadata", .object [("name", .string name)])]

def evictionHook : Hook where
  name := "guard.example.com"
  rules := [⟨["CREATE"], [""], ["v1"], ["pods/eviction"], "*"⟩]
  failClosed := true
  namespaceSelector := some (.object [("matchLabels", .object [("guarded", .string "true")])])
  objectSelector := none
  sideEffects := "Unknown"
  reviewVersions := []
  reinvokeIfNeeded := false

/-- An eviction whose body names the Pod is put to the webhook. -/
theorem admit_enforces_eviction :
    ∃ admitted, admitWrite (evictionWorld true) (some evictionRequest) .create
        (some (evictionObject "default" "web" (some (evictionNaming "web")))) none =
          .ok admitted ∧
      Allowed admitted.validations evictionHook admitted.reviewed := by
  refine ⟨_, rfl, ?_⟩
  apply (admit_enforces_iff (evictionWorld true) evictionRequest
    (.create (evictionObject "default" "web" (some (evictionNaming "web")))) [evictionGuard]
    (labelsOf guardedNamespace) _ (by decide) (by decide) rfl).mpr
  · intro hook required
    have ⟨⟨config, stored, parsed⟩, _, _⟩ := required
    obtain rfl : config = evictionGuard := by simpa using stored
    rw [show parseConfiguration evictionGuard false = [evictionHook] by decide] at parsed
    obtain rfl : hook = evictionHook := by simpa using parsed
    exact ⟨by decide, by decide, by decide⟩
  · exact ⟨⟨evictionGuard, by simp, by decide⟩, by decide, by decide⟩

/-- An eviction whose body names another Pod is admitted without asking the webhook that refuses
every eviction, though every read answers. -/
theorem admit_skips_eviction :
    ∃ admitted, admitWrite (evictionWorld false) (some evictionRequest) .create
        (some (evictionObject "default" "web" (some (evictionNaming "other")))) none =
          .ok admitted ∧
      ∃ hook, Required [evictionGuard] (labelsOf guardedNamespace) evictionRequest
          (.create (evictionObject "default" "web" (some (evictionNaming "other"))))
          admitted.reviewed hook ∧
        ¬ Allowed admitted.validations hook admitted.reviewed := by
  refine ⟨_, rfl, evictionHook, ?_, ?_⟩
  · exact ⟨⟨evictionGuard, by simp, by decide⟩, by decide, by decide⟩
  · intro allowed
    have ⟨called, member, _⟩ := allowed
    cases member

end Rustkube.Admission
