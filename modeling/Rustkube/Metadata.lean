import Rustkube.Generation
import Rustkube.ObjectStore
import Rustkube.Quantity

namespace Rustkube

open Option Json Value Text

/-- Absent, not a string, or empty. -/
def unset (field : Option Value) : Bool := ((field.bind Value.asStr?).map (· == "")).getD true

def fillUnset (field text : String) (metadata : Fields) : Fields :=
  if unset (metadata.get? field) then Fields.insert field (.string text) metadata else metadata

def fillName (name : String) (metadata : Fields) : Fields :=
  if (metadata.get? "name").isSome then metadata
  else Fields.insert "name" (.string name) metadata

def fillNamespace (ns : Option String) (metadata : Fields) : Fields :=
  match ns with
  | some ns => fillUnset "namespace" ns metadata
  | none => metadata

/-- Sets what a create left out: `name`, `namespace`, and the server's `uid` and
`creationTimestamp`. `uid` is the next generated UUID and `now` the clock. A body that is not an
object is left alone. -/
def ensureMetadata (uid now : String) (obj : Value) (name : String) (ns : Option String) : Value :=
  obj.mapObject fun root =>
    let metadata := ((root.get? "metadata").bind Value.asObject?).getD []
    Fields.insert "metadata" (.object (fillUnset "creationTimestamp" now
      (fillUnset "uid" uid (fillNamespace ns (fillName name metadata))))) root

variable {field other name : String}

variable (metadata : Fields)

theorem get?_fillUnset_of_ne {text : String} (different : other ≠ field) :
    (fillUnset field text metadata).get? other = metadata.get? other := by
  unfold fillUnset
  split_ifs
  · exact Fields.get?_insert_of_ne different
  · rfl

theorem get?_fillUnset_self (field text : String) :
    (fillUnset field text metadata).get? field =
      if unset (metadata.get? field) then some (.string text) else metadata.get? field := by
  unfold fillUnset
  split_ifs
  · exact Fields.get?_insert_self
  · rfl

theorem get?_fillName_of_ne (different : other ≠ "name") :
    (fillName name metadata).get? other = metadata.get? other := by
  unfold fillName
  split_ifs
  · rfl
  · exact Fields.get?_insert_of_ne different

theorem get?_fillNamespace_of_ne (ns : Option String) (different : other ≠ "namespace") :
    (fillNamespace ns metadata).get? other = metadata.get? other := by
  cases ns with
  | some ns => exact get?_fillUnset_of_ne metadata different
  | none => rfl

variable {ns : Option String}

theorem ensureMetadata_index {uid now : String} (obj : Value) (outside : field ≠ "metadata") :
    (ensureMetadata uid now obj name ns)[field] = obj[field] := by
  cases obj with
  | object root =>
    unfold ensureMetadata mapObject
    rw [index_object, index_object, Fields.get?_insert_of_ne outside]
  | _ => rfl

/-- `obj["metadata"][field]` taken from the stored object, when that has it. -/
def carryStored (stored : Value) (field : String) (obj : Value) : Option Value :=
  match stored["metadata"].get? field with
  | some value => if value.isNull then some obj else obj.assignIn "metadata" field value
  | none => some obj

/-- `metadata` made an object if it is none. -/
def openMetadata (obj : Value) : Option Value :=
  if obj["metadata"].isObject then some obj else obj.assign "metadata" (.object [])

def assignNamespace (ns : Option String) (obj : Value) : Option Value :=
  match ns with
  | some ns => obj.assignIn "metadata" "namespace" (.string ns)
  | none => some obj

/-- Carry the fields the server owns from the stored object into its replacement: identity,
`uid` and `creationTimestamp`. No other field of `metadata` is among them. -/
def keepServerFields (obj stored : Value) (name : String) (ns : Option String) : Option Value := do
  let obj ← openMetadata obj
  let obj ← obj.assignIn "metadata" "name" (.string name)
  let obj ← assignNamespace ns obj
  let obj ← carryStored stored "uid" obj
  carryStored stored "creationTimestamp" obj

variable {after obj stored : Value} {rev : Nat}

theorem carryStored_within (carried : carryStored stored field obj = some after) :
    Value.Within "metadata" [field] obj after := by
  unfold carryStored at carried
  split at carried
  · split_ifs at carried with null
    · rw [some.inj carried]
      exact .refl ..
    · exact .of_assignIn carried
  · rw [some.inj carried]
    exact .refl ..

theorem carryStored_isObject (carried : carryStored stored field obj = some after)
    (shape : obj["metadata"].isObject = true) : after["metadata"].isObject = true := by
  unfold carryStored at carried
  split at carried
  · split_ifs at carried with null
    · rwa [← some.inj carried]
    · exact assignIn_isObject carried
  · rwa [← some.inj carried]

theorem openMetadata_within (made : openMetadata obj = some after) :
    Value.Within "metadata" [] obj after := by
  unfold openMetadata at made
  split_ifs at made with shape
  · rw [some.inj made]
    exact .refl ..
  · refine ⟨fun field other => assign_of_ne made other, fun field _ => ?_⟩
    rw [assign_self made]
    cases metadata : obj["metadata"] with
    | object fields => simp [metadata, isObject, asObject?] at shape
    | _ => rfl

theorem assignNamespace_within (placed : assignNamespace ns obj = some after) :
    Value.Within "metadata" ["namespace"] obj after := by
  cases ns with
  | some ns => exact .of_assignIn placed
  | none =>
    rw [some.inj placed]
    exact .refl ..

theorem keepServerFields_spec (kept : keepServerFields obj stored name ns = some after) :
    Value.Within "metadata" ["name", "namespace", "uid", "creationTimestamp"] obj after ∧
      after["metadata"].isObject = true := by
  have ⟨made, first, kept⟩ := bind_eq_some_iff.mp kept
  have ⟨named, second, kept⟩ := bind_eq_some_iff.mp kept
  have ⟨placed, third, kept⟩ := bind_eq_some_iff.mp kept
  have ⟨owned, fourth, kept⟩ := bind_eq_some_iff.mp kept
  have shape : placed["metadata"].isObject = true := by
    cases ns with
    | some ns => exact assignIn_isObject third
    | none => exact some.inj third ▸ assignIn_isObject second
  refine ⟨?_, carryStored_isObject kept (carryStored_isObject fourth shape)⟩
  have identity := ((openMetadata_within first).trans (.of_assignIn second)).trans
    (assignNamespace_within third)
  exact (identity.trans (carryStored_within fourth)).trans (carryStored_within kept)

section

variable (injected : Storage.injectResourceVersion obj rev = some after)

include injected

theorem injectResourceVersion_within : Value.Within "metadata" ["resourceVersion"] obj after := by
  have opened : ∃ made, openMetadata obj = some made ∧
      made.assignIn "metadata" "resourceVersion" (.string (toString rev)) = some after := by
    unfold Storage.injectResourceVersion at injected
    unfold openMetadata
    split_ifs at injected ⊢ with shape
    · exact ⟨obj, rfl, injected⟩
    · have ⟨made, first, rest⟩ := bind_eq_some_iff.mp injected
      exact ⟨made, first, rest⟩
  have ⟨made, first, second⟩ := opened
  exact (openMetadata_within first).trans (.of_assignIn second)

theorem injectResourceVersion_version :
    after["metadata"]["resourceVersion"] = .string (toString rev) := by
  unfold Storage.injectResourceVersion at injected
  split_ifs at injected with shape
  · exact assignIn_self injected
  · have ⟨made, _, last⟩ := bind_eq_some_iff.mp injected
    exact assignIn_self last

end

/-- The deletion an object is under, if any. -/
def deletionTimestamp (obj : Value) : Option String := obj["metadata"]["deletionTimestamp"].asStr?

/-- Whether `metadata.finalizers` still holds the object back. -/
def finalizersLeft (obj : Value) : Bool :=
  match obj["metadata"]["finalizers"].asArray? with
  | some finalizers => !finalizers.isEmpty
  | none => false

/-- `text.parse::<u64>().ok()` -/
def parseU64Text (text : String) : Option Nat :=
  let digits := (Text.stripPrefix text "+").getD text
  if digits ≠ "" ∧ digits.toList.all Storage.isDigit then Storage.parseU64 digits else none

theorem parseU64Text_toString {number : Nat} (bounded : number < 2 ^ 64) :
    parseU64Text (toString number) = some number := by
  have ⟨someDigit, all, value⟩ := Storage.digits_toString number
  have noSign : stripPrefix (toString number) "+" = none := by
    cases strips : stripPrefix (toString number) "+" with
    | none => rfl
    | some rest =>
      obtain ⟨chars, signed, -⟩ := stripPrefix_char '+' strips
      cases List.all_eq_true.mp all '+' (by rw [signed]; exact (.head _))
  have nonempty : toString number ≠ "" := fun empty => someDigit (by rw [empty]; rfl)
  unfold parseU64Text Storage.parseU64
  rw [noSign, getD_none, if_pos ⟨nonempty, all⟩, value, if_pos bounded]

/-- What a prepared write asks of the store. -/
inductive Commit where
  | update (object : Value) (prevRevision : Option Nat)
  | delete (object : Value) (prevRevision : Option Nat)

def Commit.object : Commit → Value
  | .update object _ => object
  | .delete object _ => object

/-- The revision a commit is conditional on. -/
def Commit.prevRevision : Commit → Option Nat
  | .update _ prevRevision => prevRevision
  | .delete _ prevRevision => prevRevision

/-- Store the object, or remove it when it is terminating and no finalizer is left. The swap is
against the object's own `resourceVersion`, if it has one that parses. -/
def persistOrFinalize (obj : Value) : Commit :=
  let prevRevision := obj["metadata"]["resourceVersion"].asStr?.bind parseU64Text
  if (deletionTimestamp obj).isSome && !finalizersLeft obj then .delete obj prevRevision
  else .update obj prevRevision

theorem persistOrFinalize_object (obj : Value) : (persistOrFinalize obj).object = obj := by
  unfold persistOrFinalize
  split_ifs <;> rfl

theorem persistOrFinalize_prevRevision (obj : Value) :
    (persistOrFinalize obj).prevRevision =
      obj["metadata"]["resourceVersion"].asStr?.bind parseU64Text := by
  unfold persistOrFinalize
  split_ifs <;> rfl

/-- What `update` and `create` store: quantities as strings, no `resourceVersion`. -/
def storedForm (canonical : Value → String) (resource : String) (obj : Value) : Value :=
  (Quantity.numbersToStrings canonical resource obj).removeIn "metadata" "resourceVersion"

theorem storedForm_metadata (canonical : Value → String) (resource : String) (obj : Value)
    (plain : Quantity.QUANTITY_FIELDS.contains field = false) (other : field ≠ "resourceVersion") :
    (storedForm canonical resource obj)["metadata"][field].asStr? =
      obj["metadata"][field].asStr? := by
  have frame := Value.Within.of_removeIn (Quantity.numbersToStrings canonical resource obj)
    "metadata" "resourceVersion"
  rw [storedForm, frame.inside field (by simpa using other),
    (Quantity.numbersToStrings_metadata obj plain).text]

theorem storedForm_deletionTimestamp (canonical : Value → String) (resource : String)
    (obj : Value) : deletionTimestamp (storedForm canonical resource obj) = deletionTimestamp obj :=
  storedForm_metadata canonical resource obj (by decide) (by decide)

end Rustkube
