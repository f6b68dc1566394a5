import Rustkube.Metadata
import Rustkube.Schema

namespace Rustkube

open String Json Value Text Schema

/-- The resource segment of a store key, with the group of a custom resource after it. -/
def metricResource (key : String) : String :=
  let rest := (Text.splitOnce (Text.trimStartMatches key '/') '/').map Prod.snd |>.getD ""
  let first := Text.upTo rest '/'
  if first = "" then "unknown"
  else if Text.contains first '.' then
    let plural := Text.upTo ((Text.splitOnce rest '/').map Prod.snd |>.getD "") '/'
    if plural = "" then first else plural ++ "." ++ first
  else first

theorem metricResource_key {resource : String} (name : String) (given : resource ≠ "")
    (segment : '/' ∉ resource.toList) (builtIn : '.' ∉ resource.toList) :
    metricResource ("/registry/" ++ resource ++ "/" ++ name) = resource := by
  have trimmed : trimStartMatches ("/registry/" ++ resource ++ "/" ++ name) '/' =
      ofList ("registry".toList ++ '/' :: (resource.toList ++ '/' :: name.toList)) := by
    unfold trimStartMatches
    simp only [toList_append, List.append_assoc]
    rfl
  have first : splitOnce (ofList
      ("registry".toList ++ '/' :: (resource.toList ++ '/' :: name.toList))) '/' =
      some ("registry", ofList (resource.toList ++ '/' :: name.toList)) := by
    unfold splitOnce
    rw [toList_ofList, splitOnceChars_append _ (by decide)]
    rfl
  have second : upTo (ofList (resource.toList ++ '/' :: name.toList)) '/' =
      resource := by
    unfold upTo splitOnce
    rw [toList_ofList, splitOnceChars_append _ segment]
    simp
  have plain : Text.contains resource '.' = false := by
    simpa [Text.contains] using builtIn
  unfold metricResource
  rw [trimmed, first, Option.map_some, Option.getD_some]
  dsimp only
  rw [second, if_neg given, plain]
  rfl

theorem metricResource_startsWith {key start resource : String}
    (starts : Text.startsWith key start = true) (isStart : start = "/registry/" ++ resource ++ "/")
    (given : resource ≠ "") (segment : '/' ∉ resource.toList) (builtIn : '.' ∉ resource.toList) :
    metricResource key = resource := by
  have ⟨chars, whole⟩ := (startsWith_iff _ _).mp starts
  have named : key = "/registry/" ++ resource ++ "/" ++ ofList chars := by
    rw [← isStart, ← toList_inj, toList_append, toList_ofList, whole]
  rw [named, metricResource_key _ given segment builtIn]

/-- A Secret's `stringData` folded into `data`, each entry base64-encoded. `text` is an entry's
text: a string's own, nothing for `null`, its JSON for anything else. -/
def foldStringData (encode : String → String) (text : Value → String) (obj : Value) : Value :=
  match obj.get? "stringData" with
  | none => obj
  | some stringData =>
    let obj := obj.remove "stringData"
    match stringData with
    | .object entries =>
      let data := obj["data"].asObject?.getD []
      obj.insert "data" (.object (entries.foldl (fun data entry =>
        Fields.insert entry.1 (.string (encode (text entry.2))) data) data))
    | _ => obj

theorem foldStringData_index {encode : String → String} {text : Value → String} (obj : Value)
    {field : String} (notData : field ≠ "data") (notText : field ≠ "stringData") :
    (foldStringData encode text obj)[field] = obj[field] := by
  unfold foldStringData
  split
  · rfl
  · split
    · rw [index_insert_of_ne notData, index_remove_of_ne notText]
    · exact index_remove_of_ne notText

def specFinalizers (ns : Value) : List Value := ns["spec"]["finalizers"].asArray?.getD []

/-- `value[field]` made an object if it is none. -/
def openField (field : String) (value : Value) : Option Value :=
  if value[field].isObject then some value else value.assign field (.object [])

theorem openField_metadata {field : String} {value after : Value} (other : "metadata" ≠ field)
    (opened : openField field value = some after) : after["metadata"] = value["metadata"] := by
  unfold openField at opened
  split_ifs at opened with shape
  · rw [Option.some.inj opened]
  · exact assign_of_ne opened other

/-- The list with `kubernetes` in it, which holds the Namespace until its content is gone. -/
def withKubernetes (finalizers : List Value) : List Value :=
  if finalizers.any fun finalizer => finalizer.asStr? == some "kubernetes" then finalizers
  else finalizers ++ [.string "kubernetes"]

/-- A Namespace's `spec.finalizers` change only through `/finalize`. -/
def keepNamespaceFinalizers (existing body : Value) : Option Value :=
  let stored := existing["spec"]["finalizers"]
  if stored.isNull then some (body.removeIn "spec" "finalizers")
  else if body["spec"].isObject then body.assignIn "spec" "finalizers" stored
  else body.assign "spec" (.object [("finalizers", stored)])

def preemptionPolicy (priorityClass : Value) : String :=
  priorityClass["preemptionPolicy"].asStr?.getD "PreemptLowerPriority"

/-- The same data: an absent map and an empty one are. -/
def sameData (old new : Value) (field : String) : Bool :=
  let empty (value : Value) : Bool := value.isNull || decide (value = .object [])
  old[field] == new[field] || (empty old[field] && empty new[field])

/-- An immutable ConfigMap or Secret keeps its data and stays immutable; a PriorityClass keeps its
value and preemption policy. -/
def checkImmutable (key : String) (old new : Value) : Except Failure Unit :=
  let immutableData (fields : List String) : Except Failure Unit :=
    if old["immutable"].asBool? ≠ some true then pure ()
    else if new["immutable"].asBool? ≠ some true then
      refuse .invalid "immutable: Forbidden: field is immutable when `immutable` is set"
    else if !fields.all (sameData old new) then
      refuse .invalid "data: Forbidden: field is immutable when `immutable` is set"
    else pure ()
  if Text.startsWith key "/registry/priorityclasses/" then
    if old["value"] ≠ new["value"] then
      refuse .invalid "value: Forbidden: may not be changed in an update."
    else if preemptionPolicy old ≠ preemptionPolicy new then
      refuse .invalid "preemptionPolicy: Invalid value: field is immutable"
    else pure ()
  else if Text.startsWith key "/registry/configmaps/" then immutableData ["data", "binaryData"]
  else if Text.startsWith key "/registry/secrets/" then immutableData ["data", "stringData"]
  else pure ()

/-- Functions the update rules use. `canonical`, `encode` and `text` write numbers, bytes and
values as text. `check` is the verdict of `pvc_update`, `pod_gates_update` and `job_managed_by`,
which only accept or refuse. `servicePlan` is the `spec` that the defaults and the allocation of
addresses and node ports leave a Service with. `schemaErrors` is the message of an object that
fails the value validations of its schema. -/
structure KindRules where
  canonical : Value → String
  encode : String → String
  text : Value → String
  check : (key : String) → (existing body : Value) → Except ApiError Unit
  servicePlan : (existing body : Value) → Except ApiError Value
  schemaErrors : (schema obj : Value) → (old : Option Value) → Option String

namespace KindRules

variable (rules : KindRules)

def foldSecret (key : String) (body : Value) : Value :=
  if Text.startsWith key "/registry/secrets/" then foldStringData rules.encode rules.text body
  else body

theorem foldSecret_index (key : String) (body : Value) {field : String}
    (notData : field ≠ "data") (notText : field ≠ "stringData") :
    (rules.foldSecret key body)[field] = body[field] := by
  by_cases secret : Text.startsWith key "/registry/secrets/" = true
  · have folded : rules.foldSecret key body = foldStringData rules.encode rules.text body :=
      if_pos secret
    rw [folded, foldStringData_index body notData notText]
  · have same : rules.foldSecret key body = body := if_neg secret
    rw [same]

theorem foldSecret_unset {key : String} {obj : Value}
    (unset : Text.startsWith key "/registry/secrets/" = true →
      obj["stringData"] = .null) (field : String) :
          (rules.foldSecret key obj)[field] = obj[field] := by
  unfold foldSecret
  split_ifs with secret
  · unfold foldStringData
    cases found : obj.get? "stringData" with
    | none => rfl
    | some stringData =>
      have isNull : stringData = .null := by
        have := unset secret
        rwa [index_eq, found] at this
      subst isNull
      by_cases same : field = "stringData"
      · rw [same, index_remove_self, unset secret]
      · exact index_remove_of_ne same
  · rfl

def keepFinalizers (key : String) (existing body : Value) : Option Value :=
  if Text.startsWith key "/registry/namespaces/" then keepNamespaceFinalizers existing body
  else some body

def planService (key : String) (existing body : Value) : Except Failure Value :=
  if Text.startsWith key "/registry/services/" then do
    let spec ← orFail (rules.servicePlan existing body)
    orPanic (body.assign "spec" spec)
  else pure body

variable {rules} {key field : String} {existing body after : Value}

theorem keepFinalizers_index (kept : keepFinalizers key existing body = some after)
    (other : field ≠ "spec") : after[field] = body[field] := by
  unfold keepFinalizers keepNamespaceFinalizers at kept
  dsimp only at kept
  split_ifs at kept
  · rw [← Option.some.inj kept, removeIn_of_ne other]
  · exact assignIn_of_ne kept other
  · exact assign_of_ne kept other
  · rw [Option.some.inj kept]

theorem planService_index (planned : rules.planService key existing body = .ok after)
    (other : field ≠ "spec") : after[field] = body[field] := by
  unfold planService at planned
  split_ifs at planned
  · have ⟨spec, _, written⟩ := bind_eq_ok.mp planned
    exact assign_of_ne (orPanic_eq_ok.mp written) other
  · rw [pure_eq_ok.mp planned]

variable (rules)

/-- The built-in admission of an update of the object at `key` from `existing` to `body`. -/
def builtinUpdate (subresource : Option String) (key : String) (existing body : Value) :
    Except Failure Value := do
  let body := rules.foldSecret key body
  let body := Quantity.numbersToStrings rules.canonical (metricResource key) body
  let body ← orPanic (Generation.onUpdate subresource key existing body)
  let body ← orPanic (keepFinalizers key existing body)
  checkImmutable key existing body
  orFail (rules.check key existing body)
  rules.planService key existing body

end KindRules

/-- What the server decides about an object written through its main resource, beyond what the body
says. Built-in objects are stored as sent. -/
inductive Strategy where
  | builtIn
  | custom (statusSubresource : Bool) (schema : Option Value) (validation : FieldValidation)
deriving DecidableEq

namespace Strategy

/-- Default and prune under the schema; `Strict` refuses what was undeclared. The warnings of
`Warn` go to the response's headers. -/
def applySchema (schema : Option Value) (validation : FieldValidation) (obj : Value) :
    Except Failure Value :=
  match schema with
  | none => pure obj
  | some schema =>
    let (obj, unknown) := Schema.apply obj schema
    if unknown ≠ [] ∧ validation = .strict then
      let field (path : String) : String := Text.trimStartMatches path '.'
      refuse .badRequest ("strict decoding error: " ++
        ", ".intercalate (unknown.map fun path => "unknown field \"" ++ field path ++ "\"") ++
        " (" ++ ", ".intercalate (unknown.map fun path => path ++ ": field not declared in schema")
        ++ ")")
    else pure obj

/-- With the status subresource an update keeps the stored status. -/
def keepStatus (statusSubresource : Bool) (stored : Value) (obj : Value) : Value :=
  if statusSubresource then
    match stored.get? "status" with
    | some status => obj.insert "status" status
    | none => obj.remove "status"
  else obj

def outsideMetadata (obj : Value) : Option Fields :=
  obj.asObject?.map fun fields => fields.filter fun entry => entry.1 != "metadata"

/-- Whether the object's meaning changed: its `spec`, or anything outside `metadata`. -/
def meaningChanged (statusSubresource : Bool) (stored obj : Value) : Bool :=
  if statusSubresource then obj.get? "spec" != stored.get? "spec"
  else outsideMetadata stored != outsideMetadata obj

def nextGeneration (statusSubresource : Bool) (stored obj : Value) : Int :=
  let base := (Generation.positive stored["metadata"]["generation"]).getD 1
  if meaningChanged statusSubresource stored obj then Generation.succI64 base else base

variable (rules : KindRules) {field : String}

def validateSchema (schema : Option Value) (obj : Value) (old : Option Value) :
    Except Failure Unit :=
  match schema.bind fun schema => rules.schemaErrors schema obj old with
  | some message => refuse .invalid message
  | none => pure ()

/-- An update through the main resource: `stored` is what is there now. -/
def onUpdate (strategy : Strategy) (obj stored : Value) : Except Failure Value :=
  match strategy with
  | .builtIn => pure obj
  | .custom statusSubresource schema validation => do
    let obj ← applySchema schema validation obj
    if !obj.isObject then pure obj
    else
      let obj := keepStatus statusSubresource stored obj
      let generation := nextGeneration statusSubresource stored obj
      let obj ← orPanic (openMetadata obj)
      let obj ← orPanic (obj.assignIn "metadata" "generation" (.number generation))
      validateSchema rules schema obj (some stored)
      pure obj

def dropStatus (statusSubresource : Bool) (obj : Value) : Value :=
  if statusSubresource then obj.remove "status" else obj

/-- A create through the main resource. -/
def onCreate (strategy : Strategy) (obj : Value) : Except Failure Value :=
  match strategy with
  | .builtIn => pure obj
  | .custom statusSubresource schema validation => do
    let obj ← applySchema schema validation obj
    if !obj.isObject then pure obj
    else
      let obj := Generation.begin (dropStatus statusSubresource obj)
      validateSchema rules schema obj none
      pure obj

theorem applySchema_metadata {schema : Option Value} {validation : FieldValidation}
    {obj after : Value} (applied : applySchema schema validation obj = .ok after)
    (shape : obj["metadata"].isObject = true) (declared : field ∈ OBJECT_META) :
    after["metadata"][field] = obj["metadata"][field] ∧ after["metadata"].isObject = true := by
  cases schema with
  | none =>
    rw [← pure_eq_ok.mp applied]
    exact ⟨rfl, shape⟩
  | some schema =>
    simp only [applySchema] at applied
    split_ifs at applied with strict
    · simp at applied
    · rw [← pure_eq_ok.mp applied]
      have ⟨metadata, isMetadata⟩ := Value.isObject_iff.mp shape
      rw [apply_metadata_eq schema isMetadata, isMetadata, Value.index_object, Value.index_object,
        Fields.get?_filter (fun key => OBJECT_META.contains key) (by simpa using declared)]
      exact ⟨rfl, rfl⟩

theorem keepStatus_metadata (statusSubresource : Bool) (stored obj : Value) :
    (keepStatus statusSubresource stored obj)["metadata"] = obj["metadata"] := by
  unfold keepStatus
  split_ifs
  · split
    · exact Value.index_insert_of_ne (by decide)
    · exact Value.index_remove_of_ne (by decide)
  · rfl

theorem onUpdate_metadata {rules : KindRules} {strategy : Strategy} {obj stored after : Value}
    (updated : onUpdate rules strategy obj stored = .ok after)
    (shape : obj["metadata"].isObject = true)
    (declared : field ∈ OBJECT_META) (other : field ≠ "generation") :
    after["metadata"][field] = obj["metadata"][field] ∧ after["metadata"].isObject = true := by
  cases strategy with
  | builtIn =>
    rw [← pure_eq_ok.mp updated]
    exact ⟨rfl, shape⟩
  | custom statusSubresource schema validation =>
    have ⟨pruned, applied, updated⟩ := bind_eq_ok.mp updated
    have kept := applySchema_metadata applied shape declared
    split_ifs at updated with bare
    · rw [← pure_eq_ok.mp updated]
      exact kept
    · have ⟨opened, first, updated⟩ := bind_eq_ok.mp updated
      have ⟨counted, second, updated⟩ := bind_eq_ok.mp updated
      have ⟨_, _, done⟩ := bind_eq_ok.mp updated
      rw [← pure_eq_ok.mp done]
      have written := orPanic_eq_ok.mp second
      refine ⟨?_, Value.assignIn_isObject written⟩
      rw [Value.assignIn_inner_of_ne written other,
        (openMetadata_within (orPanic_eq_ok.mp first)).inside field List.not_mem_nil,
        keepStatus_metadata]
      exact kept.1

end Strategy

end Rustkube
