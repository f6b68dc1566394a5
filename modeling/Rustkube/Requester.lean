import Rustkube.Request

namespace Rustkube.Requester

open Json

def GROUP : String := "storage.storm.io"

def REQUESTER : String := "storage.storm.io/requester"

def REQUESTER_GROUPS : String := "storage.storm.io/requester-groups"

/-- `metadata.annotations` put through `update` as a map, made one if it is absent or not a map.
A body that is not an object is left alone. -/
def mapAnnotations (obj : Value) (update : Fields → Fields) : Value :=
  obj.mapObject fun root =>
    let metadata := ((root.get? "metadata").bind Value.asObject?).getD []
    let annotations := ((Fields.get? metadata "annotations").bind Value.asObject?).getD []
    Fields.insert "metadata"
      (.object (Fields.insert "annotations" (.object (update annotations)) metadata)) root

/-- Stamp a new object with `user`. -/
def onCreate (obj : Value) (user : User) : Value :=
  mapAnnotations obj fun annotations =>
    Fields.insert REQUESTER_GROUPS (.string (",".intercalate user.groups))
      (Fields.insert REQUESTER (.string user.username) annotations)

def carry (stored : Value) (key : String) (annotations : Fields) : Fields :=
  match stored["metadata"]["annotations"].get? key with
  | some value => Fields.insert key value annotations
  | none => Fields.remove key annotations

/-- Carry the stamp of `stored` over to its replacement, or remove one the client sent when
`stored` has none. -/
def onUpdate (obj stored : Value) : Value :=
  let carried := mapAnnotations obj fun annotations =>
    carry stored REQUESTER_GROUPS (carry stored REQUESTER annotations)
  if carried["metadata"]["annotations"] = .object [] then
    carried.insert "metadata" (carried["metadata"].remove "annotations")
  else carried

end Rustkube.Requester
