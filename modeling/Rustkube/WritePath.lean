import Rustkube.Admission
import Rustkube.Patch
import Rustkube.Strategy

namespace Rustkube

open Generation ObjectStore Option Json Storage

/-- What surrounds one write by a handler: the request, what admission meets, and the rules of the
object's kind. -/
structure Api where
  request : Option RequestAttrs
  world : Admission.World
  rules : KindRules

/-- The error of a missing object. The API group that its text adds to the plural is left out. -/
def notFoundAt (key : String) : ApiError :=
  let segments := (Text.split ((Text.stripPrefix key "/registry/").getD key) '/').filter (· ≠ "")
  ⟨.notFound, metricResource key ++ " \"" ++ segments.getLast?.getD key ++ "\" not found",
    none, none⟩

/-- `storage.get(key)`: the object with the revision it was stored at. -/
def ObjectStore.get (store : ObjectStore) (key : String) : Except Failure Value :=
  match store.entries key with
  | some entry => orPanic (Storage.injectResourceVersion entry.object entry.modRevision)
  | none => .error (.api (notFoundAt key))

/-- The store after a prepared write landed. -/
def Commit.land (rules : KindRules) (store : ObjectStore) (key : String) :
    Commit → Except StoreError ObjectStore
  | .update object prevRevision =>
    store.put key (storedForm rules.canonical (metricResource key) object) prevRevision
  | .delete _ prevRevision => store.delete key prevRevision

variable {store : ObjectStore} {key : String} {existing : Value}

theorem ObjectStore.get_ok (read : store.get key = .ok existing) :
    ∃ entry, store.entries key = some entry ∧
      injectResourceVersion entry.object entry.modRevision = some existing := by
  unfold get at read
  cases found : store.entries key with
  | none => simp [found] at read
  | some entry => exact ⟨entry, rfl, by simpa [found] using read⟩

variable {after : ObjectStore} {rules : KindRules} {commit : Commit} {merge : Bool}

theorem Commit.land_expects (landed : commit.land rules store key = .ok after) :
    store.expects key commit.prevRevision = true := by
  cases commit with
  | update object prevRevision => exact (put_ok landed).1
  | delete object prevRevision => exact (delete_ok landed).1

theorem Commit.land_remembers {other : String} {entry : Entry}
    (landed : commit.land rules store other = .ok after)
    (remembered : store.Remembers key entry) : after.Remembers key entry := by
  cases commit with
  | update object prevRevision => exact remembered.put landed
  | delete object prevRevision => exact remembered.delete landed

theorem Commit.land_delete {object : Value} {prevRevision : Option Nat}
    (landed : (delete object prevRevision).land rules store key = .ok after) :
    after.entries key = none := by
  rw [(delete_ok landed).2]
  split_ifs with present
  · exact erase_entries_self ..
  · simpa using present

theorem Commit.removes (landed : commit.land rules store key = .ok after)
    (gone : after.entries key = none) :
    ∃ object prevRevision, commit = .delete object prevRevision := by
  cases commit with
  | update object prevRevision =>
    rw [(put_ok landed).2, write_entries_self] at gone
    cases gone
  | delete object prevRevision => exact ⟨object, prevRevision, rfl⟩

namespace Api

variable (api : Api)

def subresource : Option String := api.request.bind (·.subresource)

/-- `admission::admit` on an object about to be stored. -/
def admitWrite (op : Operation) (object : Value) (old : Option Value) : Except Failure Value := do
  let admitted ← Admission.admitWrite api.world api.request op (some object) old
  pure (admitted.object.getD object)

def versionOf (object : Value) : String := object["metadata"]["resourceVersion"].asStr?.getD ""

def nameOf (object : Value) : String := object["metadata"]["name"].asStr?.getD ""

def namespaceOf (object : Value) : Option String := object["metadata"]["namespace"].asStr?

/-- The object a guaranteed update shows the webhooks: the mutated one, put through the built-in
rules. -/
def showUpdate (key : String) (mutate : Value → Except Failure Value) (fresh : Value) :
    Except Failure Value := do
  let obj ← mutate fresh
  if !obj["metadata"].isObject then refuse .invalid "metadata must be an object"
  else
    let obj ← api.rules.builtinUpdate api.subresource key fresh obj
    orPanic (keepServerFields obj fresh (nameOf fresh) (namespaceOf fresh))

/-- The object it asks to store. -/
def askUpdate (key : String) (mutate : Value → Except Failure Value) (fresh : Value) :
    Except Failure Value := do
  let shown ← api.showUpdate key mutate fresh
  api.admitWrite .update shown (some fresh)

/-- What the server sets on it before it is stored: its own fields, the generation, and the
version that was read. -/
def sealUpdate (key : String) (fresh asked : Value) : Except Failure Value := do
  let obj ← orPanic (keepServerFields asked fresh (nameOf fresh) (namespaceOf fresh))
  let obj ← orPanic (Generation.onUpdate api.subresource key fresh obj)
  orPanic (obj.assignIn "metadata" "resourceVersion" (.string (versionOf fresh)))

/-- One attempt of `guaranteed_update` on the object as it was read. A lost swap is another
attempt on a fresh read. -/
def guaranteedUpdate (key : String) (precondition : Option String)
    (mutate : Value → Except Failure Value) (fresh : Value) : Except Failure Commit :=
  if precondition.any (· ≠ versionOf fresh) then
    refuse .conflict ("Operation cannot be fulfilled on \"" ++ nameOf fresh ++
      "\": the object has been modified; please apply your changes to the latest version and try again")
  else do
    let asked ← api.askUpdate key mutate fresh
    let obj ← api.sealUpdate key fresh asked
    pure (persistOrFinalize obj)

/-- The checks of a PUT body against the URL and the stored object. -/
def checkPut (name : String) (ns : Option String) (existing body : Value) : Except Failure Unit :=
  let metadata := body["metadata"]
  let given (field : String) : Option String := metadata[field].asStr?.filter (· ≠ "")
  let storedUid := existing["metadata"]["uid"].asStr?
  match (given "name").filter (· ≠ name), (given "namespace").filter (fun n => ns.any (· ≠ n)),
      (given "uid").filter (fun u => some u ≠ storedUid) with
  | some n, _, _ => refuse .badRequest ("the name of the object (" ++ n ++
      ") does not match the name on the URL (" ++ name ++ ")")
  | none, some n, _ => refuse .badRequest ("the namespace of the object (" ++ n ++
      ") does not match the namespace on the URL (" ++ ns.getD "" ++ ")")
  | none, none, some u => refuse .conflict ("Precondition failed: UID in precondition: " ++
      storedUid.getD "" ++ ", UID in object meta: " ++ u)
  | none, none, none => pure ()

/-- The object a PUT shows the webhooks. -/
def showPut (strategy : Strategy) (key name : String) (ns : Option String) (body existing : Value) :
    Except Failure Value :=
  if !body.isObject then refuse .invalid "the body of a PUT must be an object"
  else do
    let body ← orPanic (openMetadata body)
    checkPut name ns existing body
    let body ← orPanic (keepServerFields body existing name ns)
    let body ← strategy.onUpdate api.rules body existing
    api.rules.builtinUpdate api.subresource key existing body

/-- The object it asks to store. -/
def askPut (strategy : Strategy) (key name : String) (ns : Option String) (body existing : Value) :
    Except Failure Value := do
  let shown ← api.showPut strategy key name ns body existing
  api.admitWrite .update shown (some existing)

def sealPut (strategy : Strategy) (key name : String) (ns : Option String)
    (existing asked : Value) : Except Failure Value := do
  let body ← orPanic (keepServerFields asked existing name ns)
  let body ← strategy.onUpdate api.rules body existing
  let body ← orPanic (Generation.onUpdate api.subresource key existing body)
  pure (api.rules.foldSecret key body)

/-- `put_object` on the object as it was read. The swap is against the version the body names, and
unconditional when it names none. -/
def putObject (strategy : Strategy) (key name : String) (ns : Option String)
    (body existing : Value) : Except Failure Commit := do
  let asked ← api.askPut strategy key name ns body existing
  let obj ← api.sealPut strategy key name ns existing asked
  pure (persistOrFinalize obj)

/-- The fields of `metadata` that a write does not decide. -/
def SERVER_FIELDS : List String :=
  ["name", "namespace", "uid", "creationTimestamp", "generation", "resourceVersion"]

variable {api : Api}

variable {obj fresh asked : Value}

theorem sealUpdate_within (prepared : api.sealUpdate key fresh asked = .ok obj) :
    Value.Within "metadata" SERVER_FIELDS asked obj := by
  have ⟨kept, first, rest⟩ := bind_eq_ok.mp prepared
  have ⟨counted, second, last⟩ := bind_eq_ok.mp rest
  have owned := (keepServerFields_spec (orPanic_eq_ok.mp first)).1
  have generation := onUpdate_within (orPanic_eq_ok.mp second)
  have version := Value.Within.of_assignIn (orPanic_eq_ok.mp last)
  exact (owned.trans generation).trans version

theorem sealUpdate_version (prepared : api.sealUpdate key fresh asked = .ok obj) :
    obj["metadata"]["resourceVersion"] = .string (versionOf fresh) := by
  have ⟨_, _, rest⟩ := bind_eq_ok.mp prepared
  have ⟨_, _, last⟩ := bind_eq_ok.mp rest
  exact Value.assignIn_self (orPanic_eq_ok.mp last)

/-- An attempt of a guaranteed update stores or removes what its mutation made of the version it
read, if that is the one it is conditional on. -/
theorem guaranteedUpdate_ok {precondition : Option String} {mutate : Value → Except Failure Value}
    (updated : api.guaranteedUpdate key precondition mutate fresh = .ok commit) :
    (∀ version ∈ precondition, version = versionOf fresh) ∧
      ∃ asked obj, api.askUpdate key mutate fresh = .ok asked ∧
        api.sealUpdate key fresh asked = .ok obj ∧ commit = persistOrFinalize obj := by
  unfold guaranteedUpdate at updated
  split_ifs at updated with stale
  · simp at updated
  · have ⟨asked, first, rest⟩ := bind_eq_ok.mp updated
    have ⟨obj, second, last⟩ := bind_eq_ok.mp rest
    refine ⟨?_, asked, obj, first, second, (pure_eq_ok.mp last).symm⟩
    intro version named
    rw [mem_def.mp named] at stale
    simpa using stale

variable {field : String}

variable {strategy : Strategy} {name : String} {ns : Option String}

section

variable (prepared : api.sealPut strategy key name ns existing asked = .ok obj)

include prepared

theorem sealPut_kept (declared : field ∈ Schema.OBJECT_META)
    (free : field ∉ ["name", "namespace", "uid", "creationTimestamp"])
    (notGeneration : field ≠ "generation") : obj["metadata"][field] = asked["metadata"][field] := by
  have ⟨kept, first, rest⟩ := bind_eq_ok.mp prepared
  have ⟨updated, second, rest⟩ := bind_eq_ok.mp rest
  have ⟨counted, third, last⟩ := bind_eq_ok.mp rest
  have owned := keepServerFields_spec (orPanic_eq_ok.mp first)
  have strategic := Strategy.onUpdate_metadata second owned.2 declared notGeneration
  have generation := onUpdate_within (orPanic_eq_ok.mp third)
  rw [← pure_eq_ok.mp last, KindRules.foldSecret_index api.rules key counted (by decide)
    (by decide), generation.inside field (by simpa using notGeneration), strategic.1,
    owned.1.inside field free]

theorem sealPut_prevRevision :
    (persistOrFinalize obj).prevRevision =
      asked["metadata"]["resourceVersion"].asStr?.bind parseU64Text := by
  rw [persistOrFinalize_prevRevision, sealPut_kept prepared (by decide) (by decide) (by decide)]

theorem sealPut_metadata (declared : field ∈ Schema.OBJECT_META) (free : field ∉ SERVER_FIELDS) :
    obj["metadata"][field] = asked["metadata"][field] := by
  simp only [SERVER_FIELDS, List.mem_cons, List.not_mem_nil, or_false, not_or] at free
  have ⟨notName, notNamespace, notUid, notCreation, notGeneration, notVersion⟩ := free
  exact sealPut_kept prepared declared (by simp [notName, notNamespace, notUid, notCreation])
    notGeneration

end

theorem sealPut_index (prepared : api.sealPut .builtIn key name ns existing asked = .ok obj)
    (outside : field ≠ "metadata") (notData : field ≠ "data") (notText : field ≠ "stringData") :
    obj[field] = asked[field] := by
  have ⟨kept, first, rest⟩ := bind_eq_ok.mp prepared
  have ⟨updated, second, rest⟩ := bind_eq_ok.mp rest
  have ⟨counted, third, last⟩ := bind_eq_ok.mp rest
  have generation := onUpdate_within (orPanic_eq_ok.mp third)
  rw [← pure_eq_ok.mp last, KindRules.foldSecret_index api.rules key counted notData notText,
    generation.outside field outside, ← pure_eq_ok.mp second,
    (keepServerFields_spec (orPanic_eq_ok.mp first)).1.outside field outside]

end Api

/-- One of `labels` and `annotations`, which a status write may change too. -/
def statusWriteField (merge : Bool) (patch : Value) (field : String) (existing : Value) :
    Option Value :=
  match patch["metadata"].get? field with
  | none => some existing
  | some new => do
    let existing ← openMetadata existing
    existing.assignIn "metadata" field
      (if merge then Patch.mergeJson existing["metadata"][field] new else new)

def statusWriteMetadata (existing patch : Value) (merge : Bool) : Option Value := do
  let existing ← statusWriteField merge patch "labels" existing
  statusWriteField merge patch "annotations" existing

theorem statusWriteField_within {patch existing after : Value} {field : String}
    (written : statusWriteField merge patch field existing = some after) :
    Value.Within "metadata" [field] existing after := by
  unfold statusWriteField at written
  split at written
  · rw [some.inj written]
    exact .refl ..
  · have ⟨opened, first, last⟩ := bind_eq_some_iff.mp written
    exact (openMetadata_within first).trans (.of_assignIn last)

theorem statusWriteMetadata_within {patch existing after : Value}
    (written : statusWriteMetadata existing patch merge = some after) :
    Value.Within "metadata" ["labels", "annotations"] existing after := by
  have ⟨labelled, labels, annotations⟩ := bind_eq_some_iff.mp written
  exact (statusWriteField_within labels).trans (statusWriteField_within annotations)

def writeStatus (body existing : Value) : Option Value :=
  match body.get? "status" with
  | some status => existing.assign "status" status
  | none => some existing

/-- The mutation of a PUT of `/status`: the body's `status` onto the stored object. -/
def putStatus (body existing : Value) : Except Failure Value := orPanic do
  let existing ← writeStatus body existing
  statusWriteMetadata existing body false

/-- A PUT of `/status` is conditional on the version its body names, if it names one. -/
def statusPrecondition (body : Value) : Option String :=
  body["metadata"]["resourceVersion"].asStr?.filter (· ≠ "")

def putSpecBack (spec : Option Value) (existing : Value) : Option Value :=
  match spec with
  | some spec => existing.assign "spec" spec
  | none => some (existing.remove "spec")

def patchStatus (merge : Value → Value → Value) (patch existing : Value) : Option Value := do
  let existing ← match patch.get? "status" with
    | some status => existing.assign "status" (merge existing["status"] status)
    | none => some existing
  statusWriteMetadata existing patch true

/-- The mutation of a PATCH of `/status`. A JSON patch is applied whole, then the spec put back. -/
def applyStatusPatch (codec : Patch.Codec) (contentType : String) (body : Bytes)
    (existing : Value) : Except Failure Value :=
  match Patch.Format.ofContentType contentType with
  | .json => do
    let patched ← Patch.applyJsonPatch codec existing body ""
    orPanic (putSpecBack (existing.get? "spec") patched)
  | .strategic => do
    let patch ← Patch.orInvalid "invalid patch: " (codec.parseJson body)
    orPanic (patchStatus Patch.strategicMerge patch existing)
  | _ => do
    let patch ← Patch.orInvalid "invalid patch: " (codec.parseJson body)
    orPanic (patchStatus Patch.mergeJson patch existing)

end Rustkube
