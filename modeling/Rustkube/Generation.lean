import Rustkube.Lib.Json
import Rustkube.Lib.Text

/- `metadata.generation` of built-in objects. -/
namespace Rustkube.Generation

open Json

/-- What an update has to change to move the generation on. -/
inductive Tracks where
  | spec
  | specAndAnnotations
  | webhooks
  /-- `spec` without `nodeName`: the scheduler binds with a PUT. -/
  | podSpec
deriving DecidableEq

def SPEC_RESOURCES : List String := [
  "replicasets", "statefulsets", "daemonsets", "replicationcontrollers", "jobs", "cronjobs",
  "poddisruptionbudgets", "networkpolicies", "ingresses", "customresourcedefinitions",
  "validatingadmissionpolicies", "validatingadmissionpolicybindings",
  "mutatingadmissionpolicies", "mutatingadmissionpolicybindings", "flowschemas",
  "prioritylevelconfigurations", "deviceclasses", "resourceslices"]

def tracks (resource : String) : Option Tracks :=
  if resource = "pods" then some .podSpec
  else if resource = "deployments" then some .specAndAnnotations
  else if resource = "mutatingwebhookconfigurations" ∨
      resource = "validatingwebhookconfigurations" then some .webhooks
  else if SPEC_RESOURCES.contains resource then some .spec
  else none

/-- The built-in resource a store key holds: `/registry/{plural}/…`. A custom resource's key has
its group there, and a group has a dot. -/
def resourceOf (key : String) : Option String := do
  let rest ← Text.stripPrefix key "/registry/"
  let segment := Text.upTo rest '/'
  if segment ≠ "" ∧ !Text.contains segment '.' then some segment else none

/-- Generation 1. -/
def begin (obj : Value) : Value :=
  match obj.get? "metadata" with
  | some metadata => obj.insert "metadata" (metadata.insert "generation" (.number 1))
  | none => obj

/-- A create of `resource`: generation 1 if the kind tracks it. -/
def onCreate (resource : String) (obj : Value) : Value :=
  if (tracks resource).isSome then begin obj else obj

theorem onCreate_index (resource : String) (obj : Value) {field : String}
    (outside : field ≠ "metadata") : (onCreate resource obj)[field] = obj[field] := by
  unfold onCreate
  by_cases tracked : (tracks resource).isSome = true
  · rw [if_pos tracked]
    unfold begin
    split
    · exact Value.index_insert_of_ne outside
    · rfl
  · rw [if_neg tracked]

def changed (tracks : Tracks) (stored obj : Value) : Bool :=
  match tracks with
  | .spec => stored.get? "spec" != obj.get? "spec"
  | .specAndAnnotations => stored.get? "spec" != obj.get? "spec" ||
      stored["metadata"].get? "annotations" != obj["metadata"].get? "annotations"
  | .webhooks => stored.get? "webhooks" != obj.get? "webhooks"
  | .podSpec => stored["spec"].remove "nodeName" != obj["spec"].remove "nodeName"

/-- One more, as an `i64` counts. -/
def succI64 (number : Int) : Int := (BitVec.ofInt 64 (number + 1)).toInt

def positive (generation : Value) : Option Int := generation.asI64?.filter (0 < ·)

/-- The generation a write outside `/status` gives the object. `none` removes it. -/
def next (resource : String) (stored obj : Value) : Option Int :=
  let old := positive stored["metadata"]["generation"]
  let generation := match tracks resource with
    -- an object stored before generations were kept counts as 1
    | some tracks =>
      let base := old.getD 1
      some (if changed tracks stored obj then succI64 base else base)
    | none => old
  let deleting := stored["metadata"]["deletionTimestamp"].isNull &&
    obj["metadata"]["deletionTimestamp"].isString
  generation.map fun generation => if deleting then succI64 generation else generation

/-- An update of the object at `key` from `stored` to `obj` through `subresource`. -/
def onUpdate (subresource : Option String) (key : String) (stored obj : Value) : Option Value :=
  match resourceOf key with
  | none => some obj
  | some resource =>
    if subresource = some "status" then
      match stored["metadata"]["generation"] with
      | .null => obj.assign "metadata" (obj["metadata"].remove "generation")
      | generation => obj.assignIn "metadata" "generation" generation
    else if !obj["metadata"].isObject then some obj
    else
      match next resource stored obj with
      | some generation => obj.assignIn "metadata" "generation" (.number generation)
      | none => obj.assign "metadata" (obj["metadata"].remove "generation")

theorem onUpdate_within {subresource : Option String} {key : String} {stored obj after : Value}
    (updated : onUpdate subresource key stored obj = some after) :
    Value.Within "metadata" ["generation"] obj after := by
  unfold onUpdate at updated
  split at updated
  · rw [Option.some.inj updated]
    exact .refl ..
  · split_ifs at updated with status shape
    · split at updated
      · exact .of_assign_remove updated
      · exact .of_assignIn updated
    · rw [Option.some.inj updated]
      exact .refl ..
    · split at updated
      · exact .of_assignIn updated
      · exact .of_assign_remove updated

end Rustkube.Generation
