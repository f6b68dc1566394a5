import Rustkube.Lib.Json

/- What the controllers read of an object's metadata. -/
namespace Rustkube.Controllers

open Json

/-- `value.as_str().unwrap_or("")` -/
def textOf (value : Value) : String := value.asStr?.getD ""

variable (object : Value)

def nameOf : String := textOf object["metadata"]["name"]

def namespaceOf : String := textOf object["metadata"]["namespace"]

/-- Where a controller makes what the object asks for. -/
def namespaceName : String := object["metadata"]["namespace"].asStr?.getD "default"

def uidOf : String := textOf object["metadata"]["uid"]

def isDeleting : Bool := !object["metadata"]["deletionTimestamp"].isNull

def ownerRefs : List Value := object["metadata"]["ownerReferences"].asArray?.getD []

theorem uidOf_within {object after : Value} {inner : List String}
    (within : Value.Within "metadata" inner object after) (free : "uid" ∉ inner) :
    uidOf after = uidOf object := congrArg textOf (within.inside "uid" free)

/-- An owner reference with that uid. -/
def ownedBy (uid : String) : Bool := (ownerRefs object).any fun ref => ref["uid"].asStr? = some uid

/-- A controller's reference to what it is told by. -/
def ownerReference (apiVersion kind : String) (owner : Value) : Value :=
  .object [("apiVersion", .string apiVersion), ("kind", .string kind),
    ("name", .string (nameOf owner)), ("uid", .string (uidOf owner)), ("controller", .bool true),
    ("blockOwnerDeletion", .bool true)]

@[simp] theorem ownerReference_uid (apiVersion kind : String) (owner : Value) :
    (ownerReference apiVersion kind owner)["uid"].asStr? = some (uidOf owner) := rfl

/-- A DELETE marks what a finalizer or a kubelet holds. -/
def marked (time : String) (pod : Value) : Value :=
  (pod.assignIn "metadata" "deletionTimestamp" (.string time)).getD pod

theorem marked_reads (time : String) (pod : Value) :
    (marked time pod)["metadata"]["ownerReferences"] = pod["metadata"]["ownerReferences"] ∧
      (marked time pod)["status"] = pod["status"] := by
  unfold marked
  cases written : pod.assignIn "metadata" "deletionTimestamp" (.string time) with
  | none => exact ⟨rfl, rfl⟩
  | some after =>
    exact ⟨Value.assignIn_inner_of_ne written (by decide), Value.assignIn_of_ne written (by decide)⟩

/-- What becomes of a call: it can fail, and it can be applied with its answer lost. -/
inductive Outcome where
  | served
  | failed
  | lost
deriving DecidableEq

end Rustkube.Controllers
