import Rustkube.Lib.Json

/- A custom resource's structural schema applied to the object: defaulting and pruning. -/
namespace Rustkube.Schema

open Json

/-- What `metadata` keeps at the root and in an embedded resource. -/
def OBJECT_META : List String := [
  "name", "generateName", "namespace", "selfLink", "uid", "resourceVersion",
  "generation", "creationTimestamp", "deletionTimestamp", "deletionGracePeriodSeconds",
  "labels", "annotations", "ownerReferences", "finalizers", "managedFields"]

/-- What to do with a request's undeclared fields. -/
inductive FieldValidation where
  | ignore
  | warn
  | strict
deriving DecidableEq

def fillDefault (fields : Fields) (key : String) (schema : Value) : Fields :=
  let nullable := schema["nullable"].asBool?.getD false
  match schema.get? "default", fields.get? key with
  | none, some value => if !nullable && value.isNull then Fields.remove key fields else fields
  | none, none => fields
  | some default, none => Fields.insert key default fields
  | some default, some value =>
    if !nullable && value.isNull then Fields.insert key default fields else fields

def fillDefaults (fields properties : Fields) : Fields :=
  properties.foldl (fun fields (key, schema) => fillDefault fields key schema) fields

/-- `metadata` without the fields that are not ObjectMeta's, and the paths of those. -/
def pruneMetadata (path : String) : Value → Value × List String
  | .object fields =>
    (.object (fields.filter fun (key, _) => OBJECT_META.contains key),
      (fields.filter fun (key, _) => !OBJECT_META.contains key).map fun (key, _) =>
        path ++ "." ++ key)
  | value => (value, [])

/-- What becomes of one field of an object: kept as it is, walked under a schema of its own, its
metadata pruned, or dropped. -/
inductive Treatment where
  | keep
  | descend (schema : Value)
  | metadata
  | drop

def treatment (schema : Value) (embedded : Bool) (key : String) : Treatment :=
  if embedded && (key == "apiVersion" || key == "kind") then .keep
  else if embedded && key == "metadata" then .metadata
  else
    match (schema["properties"].asObject?).bind (Fields.get? · key) with
    | some inner => .descend inner
    | none =>
      match schema.get? "additionalProperties" with
      | some (.bool true) => .keep
      | some (.object fields) => .descend (.object fields)
      | _ =>
        if schema["x-kubernetes-preserve-unknown-fields"].asBool?.getD false then .keep else .drop

mutual

def depth : Value → Nat
  | .object fields => depthFields fields + 1
  | .array items => depthItems items + 1
  | _ => 0

def depthFields : List (String × Value) → Nat
  | [] => 0
  | (_, value) :: rest => max (depth value) (depthFields rest)

def depthItems : List Value → Nat
  | [] => 0
  | value :: rest => max (depth value) (depthItems rest)

end

/-- One field of an object, treated; `descend` walks it under a schema of its own. -/
def walkField (descend : (schema : Value) → (path : String) → Value → Value × List String)
    (schema : Value) (embedded : Bool) (path key : String) (value : Value) :
    Option Value × List String :=
  let child := path ++ "." ++ key
  match treatment schema embedded key with
  | .keep => (some value, [])
  | .metadata => (some (pruneMetadata child value).1, (pruneMetadata child value).2)
  | .descend inner => (some (descend inner child value).1, (descend inner child value).2)
  | .drop => (none, [child])

/-- Default and prune one value under `schema`; the paths pruned come with it. Every call goes one
level down in the schema, so `levels` bounds them. -/
def walk : (levels : Nat) → (resource : Bool) → (schema : Value) → (path : String) → Value →
    Value × List String
  | 0, _, _, _, obj => (obj, [])
  | levels + 1, resource, schema, path, obj =>
    match obj with
    | .object fields =>
      let embedded := resource || schema["x-kubernetes-embedded-resource"].asBool?.getD false
      let filled := fillDefaults fields (schema["properties"].asObject?.getD [])
      let field := walkField (walk levels false) schema embedded path
      (.object (filled.filterMap fun entry => (field entry.1 entry.2).1.map (entry.1, ·)),
        filled.flatMap fun entry => (field entry.1 entry.2).2)
    | .array items =>
      match schema.get? "items" with
      | some inner =>
        let walked := items.mapIdx fun i item =>
          walk levels false inner (path ++ "[" ++ toString i ++ "]") item
        (.array (walked.map Prod.fst), walked.flatMap Prod.snd)
      | none => (obj, [])
    | _ => (obj, [])

/-- Default and prune a whole custom resource under its version's schema. -/
def apply (obj schema : Value) : Value × List String :=
  walk (depth schema + 1) true schema "" obj

theorem get?_fillDefault {fields : Fields} {name : String} {value : Value}
    (found : Fields.get? fields name = some value) (set : value.isNull = false) (key : String)
    (schema : Value) : Fields.get? (fillDefault fields key schema) name = some value := by
  by_cases same : name = key
  · subst same
    simp only [fillDefault, found]
    cases schema.get? "default" <;> simp [set, found]
  · unfold fillDefault
    dsimp only
    split
    · split_ifs
      · rw [Fields.get?_remove_of_ne same, found]
      · exact found
    · exact found
    · rw [Fields.get?_insert_of_ne same, found]
    · split_ifs
      · rw [Fields.get?_insert_of_ne same, found]
      · exact found

theorem get?_fillDefaults {name : String} {value : Value} (set : value.isNull = false)
    (properties : Fields) : ∀ {fields : Fields}, Fields.get? fields name = some value →
      Fields.get? (fillDefaults fields properties) name = some value := by
  induction properties with
  | nil => exact fun found => found
  | cons property rest ih =>
    intro fields found
    exact ih (get?_fillDefault found set property.1 property.2)

variable {obj : Value}

theorem apply_metadata_eq (schema : Value) {metadata : Fields}
    (shape : obj["metadata"] = .object metadata) :
    (apply obj schema).1["metadata"] =
      .object (metadata.filter fun entry => OBJECT_META.contains entry.1) := by
  cases obj with
  | object fields =>
    have found : Fields.get? fields "metadata" = some (.object metadata) := by
      rw [Value.index_object] at shape
      cases look : Fields.get? fields "metadata" with
      | none => simp [look] at shape
      | some value => simpa [look] using shape
    have filled := get?_fillDefaults rfl (schema["properties"].asObject?.getD []) found
    simp only [apply, walk, Bool.true_or, Value.index_object]
    rw [Fields.get?_filterMap (fun key value => (walkField _ schema true "" key value).1), filled]
    · simp [walkField, treatment, pruneMetadata]
    · intro value
      rfl
  | _ => simp [Value.index_eq, Value.get?, Value.asObject?] at shape

end Rustkube.Schema
