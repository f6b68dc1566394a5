import Rustkube.WritePath

/- Server-side apply: field ownership in `metadata.managedFields`. -/
namespace Rustkube.Apply

open Json Storage

mutual

/-- The FieldsV1 tree of an applied intent: objects recurse under `f:<key>`; scalars, arrays and
empty objects are leaves. -/
def fieldsV1 : Value → Value
  | .object fields => .object (fieldsV1Fields fields)
  | _ => .object []

def fieldsV1Fields : List (String × Value) → List (String × Value)
  | [] => []
  | (key, value) :: rest => ("f:" ++ key, fieldsV1 value) :: fieldsV1Fields rest

end

mutual

/-- The paths of the leaves that a FieldsV1 tree owns. -/
def leaves (path : String) : Value → List String
  | .object (field :: fields) => leavesFields path (field :: fields)
  | _ => [path]

def leavesFields (path : String) : List (String × Value) → List String
  | [] => []
  | (key, value) :: rest =>
    leaves (path ++ "/" ++ (Text.stripPrefix key "f:").getD key) value ++ leavesFields path rest

end

def removeAt (obj : Value) : List String → Value
  | [] => obj
  | [last] => obj.remove last
  | part :: rest =>
    match obj.get? part with
    | some inner => obj.insert part (removeAt inner rest)
    | none => obj

/-- Remove the value at a `/a/b/c` path. -/
def removePointer (obj : Value) (path : String) : Value :=
  removeAt obj (Text.split (Text.trimStartMatches path '/') '/')

/-- The managers and the leaves each owns, in the order of `managedFields`. -/
def ownership (existing : Value) : List (String × List String) :=
  (existing["metadata"]["managedFields"].asArray?.getD []).map fun entry =>
    (entry["manager"].asStr?.getD "", leaves "" entry["fieldsV1"])

/-- The other manager that owns a leaf: the first one listed. -/
def owner (existing : Value) (manager leaf : String) : Option String :=
  ((ownership existing).find? fun entry => entry.1 != manager && entry.2.contains leaf).map Prod.fst

/-- The leaves `manager` owned last time. -/
def previous (existing : Value) (manager : String) : List String :=
  (((ownership existing).reverse.find? fun entry => entry.1 == manager).map Prod.snd).getD []

structure Conflict where
  field : String
  manager : String

/-- A leaf the intent sets that another manager owns and whose value would change. -/
def conflict (existing applied : Value) (manager : String) : Option Conflict :=
  (leaves "" (fieldsV1 applied)).findSome? fun leaf =>
    match owner existing manager leaf with
    | some other =>
      if Patch.pointer existing leaf ≠ Patch.pointer applied leaf then
        some ⟨".".intercalate (Text.split (Text.trimStartMatches leaf '/') '/'), other⟩
      else none
    | none => none

/-- Prune the leaves this manager dropped. -/
def prune (existing applied : Value) (manager : String) : Value :=
  let kept := leaves "" (fieldsV1 applied)
  ((previous existing manager).filter fun leaf => !kept.contains leaf).foldl removePointer existing

/-- This manager's `managedFields` entry, over any prior one. -/
def recordManager (existing applied : Value) (manager now : String) : Option Value := do
  let entry : Value := .object [
    ("apiVersion", .string (applied["apiVersion"].asStr?.getD "v1")),
    ("fieldsType", .string "FieldsV1"),
    ("fieldsV1", fieldsV1 applied),
    ("manager", .string manager),
    ("operation", .string "Apply"),
    ("time", .string now)]
  let others := (existing["metadata"]["managedFields"].asArray?.getD []).filter fun entry =>
    entry["manager"].asStr? != some manager
  let existing ← openMetadata existing
  existing.assignIn "metadata" "managedFields" (.array (others ++ [entry]))

/-- Apply an intent for `manager`: refuse a change of another manager's leaf unless forced, prune
what the manager dropped, merge the intent, and record who owns it. -/
def serverSideApply (existing applied : Value) (manager now : String) (force : Bool) :
    Except Failure Value :=
  match if force then none else conflict existing applied manager with
  | some found => refuse .conflict ("Apply failed with 1 conflict: field \"" ++ found.field ++
      "\" is managed by \"" ++ found.manager ++ "\" (set fieldManager force to override)")
  | none => orPanic (recordManager (Patch.merge (prune existing applied manager) applied)
      applied manager now)

structure Params where
  manager : String
  force : Bool
  now : String

/-- The mutation of a PATCH of a whole object. -/
def patchObject (rules : KindRules) (codec : Patch.Codec) (strategy : Strategy)
    (contentType : String) (params : Params) (body : Bytes) (existing : Value) :
    Except Failure Value := do
  let out ← match Patch.Format.ofContentType contentType with
    | .apply => do
      let applied ← Patch.orInvalid "invalid apply patch: " (codec.parseYaml body)
      serverSideApply existing applied params.manager params.now params.force
    | _ => Patch.applyPatchBody codec existing contentType body
  strategy.onUpdate rules out existing

end Rustkube.Apply
