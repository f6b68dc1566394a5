import Rustkube.Lib.Json

namespace Rustkube.Quantity

open List Json Value

/-- The built-in resources whose objects carry quantities. -/
def QUANTITY_RESOURCES : List String := [
  "pods", "podtemplates", "replicationcontrollers", "replicasets", "deployments",
  "statefulsets", "daemonsets", "jobs", "cronjobs", "nodes", "persistentvolumeclaims",
  "persistentvolumes", "resourcequotas", "limitranges", "runtimeclasses",
  "horizontalpodautoscalers", "csistoragecapacities", "resourceslices", "resourceclaims",
  "resourceclaimtemplates"]

/-- Maps whose values are all quantities. -/
def QUANTITY_MAPS : List String := [
  "limits", "requests", "capacity", "allocatable", "hard", "used", "overhead", "podFixed",
  "allocatedResources", "min", "max", "default", "defaultRequest", "maxLimitRequestRatio"]

/-- Fields that are a single quantity, wherever they sit. -/
def QUANTITY_FIELDS : List String := ["sizeLimit", "averageValue", "maximumVolumeSize"]

/-- `path` holds the keys above `key`, the innermost first. -/
def isQuantity (resource : String) (path : List String) (key : String) : Bool :=
  path.head?.any QUANTITY_MAPS.contains ||
  QUANTITY_FIELDS.contains key ||
  (resource == "csistoragecapacities" && key == "capacity" && path.isEmpty) ||
  (resource == "horizontalpodautoscalers" && key == "value" &&
    path.head?.any fun parent => parent == "target" || parent == "current") ||
  (key == "value" && path.tail.head? == some "capacity")

def isNumber : Value → Bool
  | .number _ => true
  | .float _ => true
  | _ => false

/- `canonical` writes a number as a quantity, as `canonical_number` does. -/
variable (canonical : Value → String) (resource : String)

mutual

def walk (path : List String) : Value → Value
  | .object fields => .object (walkFields path fields)
  | .array items => .array (walkItems path items)
  | value => value

def walkFields (path : List String) : List (String × Value) → List (String × Value)
  | [] => []
  | (key, child) :: rest =>
    (key, if isNumber child then
        if isQuantity resource path key then .string (canonical child) else child
      else walk (key :: path) child) :: walkFields path rest

def walkItems (path : List String) : List Value → List Value
  | [] => []
  | item :: rest => walk path item :: walkItems path rest

end

/-- Every number at a quantity path of a built-in resource's object as a string. -/
def numbersToStrings (obj : Value) : Value :=
  if QUANTITY_RESOURCES.contains resource then walk canonical resource [] obj else obj

/-- What `walk` makes of the field `key`. -/
def walkChild (path : List String) (key : String) (child : Value) : Value :=
  if isNumber child then
    if isQuantity resource path key then .string (canonical child) else child
  else walk canonical resource (key :: path) child

variable {canonical resource} {field key : String} {path : List String}

theorem walkFields_get? (path : List String) (fields : Fields) (key : String) :
    Fields.get? (walkFields canonical resource path fields) key =
      (Fields.get? fields key).map (walkChild canonical resource path key) := by
  induction fields with
  | nil => rfl
  | cons entry rest ih =>
    have ⟨name, child⟩ := entry
    simp only [Fields.get?, walkFields] at ih ⊢
    by_cases same : key = name
    · subst same
      simp [walkChild]
    · rw [lookup_cons_of_ne same, lookup_cons_of_ne same]
      exact ih

theorem walk_index (path : List String) (value : Value) (key : String) :
    (walk canonical resource path value)[key] = walkChild canonical resource path key
      value[key] := by
  have missing : null = walkChild canonical resource path key .null := by
    simp [walkChild, isNumber, walk]
  cases value with
  | object fields =>
    rw [walk, index_object, index_object, walkFields_get?]
    cases Fields.get? fields key with
    | none => exact missing
    | some child => rfl
  | array items => rw [walk]; exact missing
  | _ => exact missing

/-- The values are the same text or none, and lists that are both empty or neither. -/
structure Alike (value other : Value) : Prop where
  text : value.asStr? = other.asStr?
  list : value.asArray?.map isEmpty = other.asArray?.map isEmpty

theorem walkChild_alike (child : Value) (plain : isQuantity resource path key = false) :
    Alike (walkChild canonical resource path key child) child := by
  cases child with
  | array items =>
    cases items <;> exact ⟨by simp [walkChild, isNumber, walk, asStr?],
      by simp [walkChild, isNumber, walk, walkItems, asArray?]⟩
  | _ => constructor <;> simp [walkChild, isNumber, walk, plain, asStr?, asArray?]

theorem walk_metadata (obj : Value) (field : String) :
    (walk canonical resource [] obj)["metadata"][field] =
      walkChild canonical resource ["metadata"] field obj["metadata"][field] := by
  rw [walk_index]
  generalize obj["metadata"] = metadata
  cases metadata with
  | number | float =>
    have plain : isQuantity resource [] "metadata" = false := by simp [isQuantity, QUANTITY_FIELDS]
    rw [walkChild, plain]
    rfl
  | _ => exact walk_index ..

theorem numbersToStrings_metadata (obj : Value) (plain : QUANTITY_FIELDS.contains field = false) :
    Alike (numbersToStrings canonical resource obj)["metadata"][field] obj["metadata"][field] := by
  unfold numbersToStrings
  split_ifs with kind
  · have other : isQuantity resource ["metadata"] field = false := by
      simp only [isQuantity, head?_cons, tail_cons, head?_nil, Option.any_some,
        isEmpty_cons, Bool.and_false, plain]
      simp [QUANTITY_MAPS]
    rw [walk_metadata]
    exact walkChild_alike _ other
  · exact ⟨rfl, rfl⟩

theorem numbersToStrings_isObject {obj : Value} (shape : obj[field].isObject = true) :
    (numbersToStrings canonical resource obj)[field].isObject = true := by
  unfold numbersToStrings
  split_ifs with kind
  · have ⟨fields, isFields⟩ := isObject_iff.mp shape
    rw [walk_index, isFields]
    rfl
  · exact shape

end Rustkube.Quantity
