import Rustkube.ControllerObjects
import Rustkube.Lib.Process
import Rustkube.Lib.Versions

/- The garbage collector's pass over one object: its finalizers, and then its own owners. -/
namespace Rustkube.Gc

open Json Controllers

abbrev Seen : Type := Version Value

/-- One resource type the collector can see. -/
structure Resource where
  groupVersion : String
  name : String
  kind : String
  namespaced : Bool
deriving DecidableEq

structure Place where
  resource : Resource
  space : String
  name : String
deriving DecidableEq

def Resource.objectPath (resource : Resource) (space name : String) : Place :=
  ⟨resource, if resource.namespaced then space else "", name⟩

/-- An object, with enough context to find it again. -/
structure Object where
  resource : Resource
  seen : Seen
deriving DecidableEq

namespace Object

variable (object : Object)

def value : Value := object.seen.object

def path : Place := object.resource.objectPath (namespaceOf object.value) (nameOf object.value)

def finalizers : List String := object.value["metadata"]["finalizers"].strings

end Object

def foregroundFinalizer : String := "foregroundDeletion"

def orphanFinalizer : String := "orphan"

inductive Policy where
  | background
  | foreground
deriving DecidableEq

/-- What the collector's patches replace in `metadata`. -/
inductive MetadataPatch where
  | ownerReferences (refs : List Value)
  | finalizers (list : List Value)
deriving DecidableEq

inductive Op where
  | list (resource : Resource)
  | get (place : Place)
  | delete (place : Place) (seen : Seen) (policy : Policy)
  | patch (place : Place) (seen : Seen) (patch : MetadataPatch)

/-- A request that failed is answered with `none` or `false`; an object that is not there, with
`some none`. -/
@[reducible] def Answer : Op → Type
  | .list _ => Option (List Seen)
  | .get _ => Option (Option Seen)
  | .delete .. => Bool
  | .patch .. => Bool

abbrev Work : Type := Process Op Answer (Option Object)

def stop : Work := .done none

/-- `Key::of`: an object without a name or a uid fails the pass. -/
def keyed (value : Value) : Bool := nameOf value ≠ "" ∧ uidOf value ≠ ""

/-- The dependents among the items of one list, each uid once. -/
def dependents (uid : String) (resource : Resource) :
    List Seen → List String → List Object → Option (List String × List Object)
  | [], known, children => some (known, children)
  | item :: rest, known, children =>
    if ownedBy item.object uid then
      if keyed item.object then
        if uidOf item.object ∈ known then dependents uid resource rest known children
        else dependents uid resource rest (uidOf item.object :: known)
          (children ++ [⟨resource, item⟩])
      else none
    else dependents uid resource rest known children

/-- Every resource is listed, so that no dependent is missed that a watch has not shown yet. -/
def gather (uid : String) (next : List Object → Work) :
    List Resource → List String → List Object → Work
  | [], _, children => next children
  | resource :: rest, known, children =>
    .call (.list resource) fun answer =>
      match (answer : Option (List Seen)) with
      | none => stop
      | some items =>
        match dependents uid resource items known children with
        | some (known, children) => gather uid next rest known children
        | none => stop

def removeFinalizer (object : Object) (finalizer : String) (next : Work) : Work :=
  let remaining := (object.finalizers.filter (· ≠ finalizer)).map Value.string
  .call (.patch object.path object.seen (.finalizers remaining)) fun _ => next

/-- The reference to the owner is cut from every dependent. -/
def stripOwners (uid : String) (next : Bool → Work) : List Object → Bool → Work
  | [], allCut => next allCut
  | child :: rest, allCut =>
    let refs := ownerRefs child.value
    let remaining := refs.filter fun ref => ref["uid"].asStr? ≠ some uid
    if remaining.length = refs.length then stripOwners uid next rest allCut
    else .call (.patch child.path child.seen (.ownerReferences remaining)) fun answer =>
      stripOwners uid next rest (allCut && (answer : Bool))

/-- Every dependent that is not on its way already is deleted, whatever its other owners are. -/
def deleteDependents (next : Work) : List Object → Work
  | [] => next
  | child :: rest =>
    if isDeleting child.value then deleteDependents next rest
    else .call (.delete child.path child.seen .foreground) fun _ => deleteDependents next rest

def blocks (uid : String) (child : Object) : Bool :=
  (ownerRefs child.value).any fun ref =>
    ref["uid"].asStr? = some uid ∧ ref["blockOwnerDeletion"].asBool? = some true

/-- The two policies that hold an object until something was done about its dependents. -/
def processFinalizers (owner : Object) (children : List Object) (next : Work) : Work :=
  let uid := uidOf owner.value
  if orphanFinalizer ∈ owner.finalizers then
    stripOwners uid (fun allCut =>
      if allCut then removeFinalizer owner orphanFinalizer next else stop) children true
  else
    deleteDependents
      (if children.any (blocks uid) then next else removeFinalizer owner foregroundFinalizer next)
      children

/-- The resource that a reference's kind is served as, going by the first of that kind. -/
def resourceOf (resources : List Resource) (ref : Value) : Option Resource :=
  resources.find? fun resource =>
    ref["apiVersion"] = .string resource.groupVersion ∧ ref["kind"] = .string resource.kind

/-- Every owner is read again; a kind that is not known ends the pass. -/
def checkOwners (resources : List Resource) (object : Object) (next : List String → Work) :
    List Value → List String → Work
  | [], live => next live
  | ref :: rest, live =>
    match resourceOf resources ref, ref["name"].asStr? with
    | some resource, some name =>
      if textOf ref["uid"] = "" then stop
      else .call (.get (resource.objectPath (namespaceOf object.value) name)) fun answer =>
        match (answer : Option (Option Seen)) with
        | none => stop
        | some found =>
          let alive := found.any fun current => current.object["metadata"]["uid"] = ref["uid"]
          checkOwners resources object next rest (if alive then textOf ref["uid"] :: live else live)
    | _, _ => stop

/-- An object is garbage when every owner is gone. -/
def backgroundCascade (object : Object) (live : List String) : Work :=
  let refs := ownerRefs object.value
  if isDeleting object.value ∨ refs = [] ∨ refs.any (fun ref => textOf ref["uid"] ∈ live) then stop
  else if uidOf object.value = "" then stop
  else .call (.delete object.path object.seen .background) fun _ => stop

def cascade (resources : List Resource) (object : Object) : Work :=
  checkOwners resources object (backgroundCascade object) (ownerRefs object.value) []

/-- Whether the object is held for one of the two policies. -/
def held (object : Object) : Bool :=
  isDeleting object.value ∧
    (foregroundFinalizer ∈ object.finalizers ∨ orphanFinalizer ∈ object.finalizers)

def reconcile (resources : List Resource) (object : Object) : Work :=
  if ¬keyed object.value then stop
  else if held object then
    gather (uidOf object.value)
      (fun children => processFinalizers object children (cascade resources object))
      resources [uidOf object.value] []
  else cascade resources object

/- The collector's passes among the writes of everyone else. -/

open List Option Versions

abbrev World : Type := Versions Place Value

/-- A request is served; it fails; it lands and its response is lost; or the object changes between
the server's check of a DELETE's preconditions and the removal. -/
inductive Outcome where
  | served
  | failed
  | lost
  | raced
deriving DecidableEq

def MetadataPatch.apply (object : Value) : MetadataPatch → Option Value
  | .ownerReferences refs => object.assignIn "metadata" "ownerReferences" (.array refs)
  | .finalizers list => object.assignIn "metadata" "finalizers" (.array list)

/-- The finalizers that hold an object under a policy. -/
def heldBy (policy : Policy) (object : Value) : List String :=
  let finalizers := object["metadata"]["finalizers"].strings
  if policy = .foreground ∧ foregroundFinalizer ∉ finalizers then finalizers ++
    [foregroundFinalizer]
  else finalizers

def markDeleted (object : Value) (finalizers : List String) : Option Value := do
  let finalized ← object.assignIn "metadata" "finalizers" (.array (finalizers.map .string))
  if isDeleting object then some finalized
  else finalized.assignIn "metadata" "deletionTimestamp" (.string "now")

/-- What a DELETE leaves of an object: with finalizers, or where its dependents go first, it stays,
under deletion. -/
def leaves (policy : Policy) (object : Value) : Option Value :=
  if heldBy policy object = [] then none else markDeleted object (heldBy policy object)

/-- An object under deletion that no finalizer holds is removed. -/
def put (world : World) (place : Place) (object : Value) : World :=
  if isDeleting object ∧ object["metadata"]["finalizers"].strings = [] then world.remove place
  else world.write place object

def items (world : World) (resource : Resource) : List Seen :=
  (world.past.filter fun entry =>
    entry.1.resource = resource ∧ world.current entry.1 = some entry.2).map Prod.snd

/-- The version that a DELETE acts on. -/
def hit (world : World) (op : Op) (outcome : Outcome) : Option Seen :=
  match op with
  | .delete place seen _ => (world.current place).filter fun stored =>
      outcome = .raced ∨ (outcome ≠ .failed ∧ stored.number = seen.number)
  | _ => none

def perform (world : World) : (op : Op) → Outcome → Answer op × World
  | .list resource, outcome =>
    (if outcome = .served then some (items world resource) else none, world)
  | .get place, outcome => (if outcome = .served then some (world.current place) else none, world)
  | .delete place seen policy, outcome =>
    match hit world (.delete place seen policy) outcome with
    | some stored => (outcome = .served, match leaves policy stored.object with
      | some left => world.write place left
      | none => world.remove place)
    | none => (false, world)
  | .patch place seen patch, outcome =>
    match (world.current place).filter (·.number = seen.number) with
    | some stored =>
      match patch.apply stored.object with
      | some body => if outcome = .served ∨ outcome = .lost then
          (outcome = .served, put world place body) else (false, world)
      | none => (false, world)
    | none => (false, world)

section

/-- A uid that no object had and no reference names. -/
def Unused (world : World) (uid : String) : Prop :=
  ∀ entry ∈ world.past, uidOf entry.2.object ≠ uid ∧
    ∀ ref ∈ ownerRefs entry.2.object, ref["uid"].asStr? ≠ some uid

instance (world : World) (uid : String) : Decidable (Unused world uid) :=
  inferInstanceAs (Decidable (∀ _ ∈ _, _))

/-- What can become of the store in one step. -/
inductive Change (world : World) : World → Prop
  | same : Change world world
  | write {place : Place} {old : Seen} {body : Value} (found : world.current place = some old)
      (uid : uidOf body = uidOf old.object)
      (mark : isDeleting old.object = true → isDeleting body = true) :
      Change world (world.write place body)
  | create {place : Place} {body : Value} (absent : world.current place = none)
      (unused : Unused world (uidOf body)) : Change world (world.write place body)
  | remove (place : Place) : Change world (world.remove place)

variable {world : World} {object after : Value} {inner : List String}

theorem deleting_of_within (within : Value.Within "metadata" inner object after)
    (free : "deletionTimestamp" ∉ inner) : isDeleting after = isDeleting object := by
  unfold isDeleting
  rw [within.inside "deletionTimestamp" free]

theorem apply_within {patch : MetadataPatch} (applied : patch.apply object = some after) :
    Value.Within "metadata" ["ownerReferences", "finalizers"] object after := by
  cases patch with
  | ownerReferences refs =>
    have within : Value.Within "metadata" ["ownerReferences"] object after := .of_assignIn applied
    exact ⟨within.outside, fun field free => within.inside field fun member =>
      free (mem_cons.mpr (.inl (mem_singleton.mp member)))⟩
  | finalizers list =>
    have within : Value.Within "metadata" ["finalizers"] object after := .of_assignIn applied
    exact ⟨within.outside, fun field free => within.inside field fun member =>
      free (.tail _ member)⟩

theorem leaves_spec {policy : Policy} (left : leaves policy object = some after) :
    uidOf after = uidOf object ∧ isDeleting after = true := by
  unfold leaves at left
  split_ifs at left
  have ⟨finalized, first, second⟩ := bind_eq_some_iff.mp left
  have within : Value.Within "metadata" ["finalizers"] object finalized := .of_assignIn first
  split_ifs at second with deleting
  · cases second
    exact ⟨uidOf_within within (by decide), (deleting_of_within within (by decide)).trans deleting⟩
  · have marked : Value.Within "metadata" ["deletionTimestamp"] finalized after :=
      .of_assignIn second
    refine ⟨(uidOf_within marked (by decide)).trans (uidOf_within within (by decide)), ?_⟩
    unfold isDeleting
    rw [Value.assignIn_self second]
    rfl

theorem perform_change (world : World) (op : Op) (outcome : Outcome) :
    Change world (perform world op outcome).2 := by
  cases op with
  | list | get => exact .same
  | delete place seen policy =>
    simp only [perform]
    split
    · next stored hits =>
      have found : world.current place = some stored := (filter_eq_some_iff.mp hits).1
      split
      · next left leave =>
        have ⟨uid, deleting⟩ := leaves_spec leave
        exact .write found uid fun _ => deleting
      · exact .remove place
    · exact .same
  | patch place seen patch =>
    simp only [perform]
    split
    · next stored filtered =>
      have found : world.current place = some stored := (filter_eq_some_iff.mp filtered).1
      split
      · next body applied =>
        have within := apply_within applied
        split_ifs
        · dsimp only [put]
          split_ifs
          · exact .remove place
          · exact .write found (uidOf_within within (by decide)) fun marked =>
              (deleting_of_within within (by decide)).trans marked
        · exact .same
      · exact .same
    · exact .same

end

/-- An owner reference names an object by kind, name and uid, in the namespace of its own object or
at cluster scope. -/
def Names (child ref : Value) (place : Place) (owner : Value) : Prop :=
  ref["apiVersion"] = .string place.resource.groupVersion ∧
    ref["kind"] = .string place.resource.kind ∧ ref["name"].asStr? = some place.name ∧
    ref["uid"].asStr? = some (uidOf owner) ∧
    (place.resource.namespaced = true → place.space = namespaceOf child)

instance (child ref : Value) (place : Place) (owner : Value) :
    Decidable (Names child ref place owner) :=
  inferInstanceAs (Decidable (_ ∧ _))

/-- No object that a reference names is alive. -/
def Dead (world : World) (child ref : Value) : Prop :=
  ∀ place owner, world.current place = some owner → Names child ref place owner.object →
    isDeleting owner.object = true

/-- The object that a reference names is not at that place. -/
def Missing (world : World) (place : Place) (ref : Value) : Prop :=
  ∀ stored, world.current place = some stored → ref["uid"].asStr? ≠ some (uidOf stored.object)

structure Sound (world : World) : Prop where
  versions : world.Sound
  uids : ∀ place stored other found, world.current place = some stored →
    world.current other = some found → uidOf stored.object = uidOf found.object → place = other
  doomed : ∀ entry ∈ world.past, isDeleting entry.2.object = true → ∀ place stored,
    world.current place = some stored → uidOf stored.object = uidOf entry.2.object →
    isDeleting stored.object = true

variable {world after : World} {place recorded : Place} {ref body : Value} {child : Seen}

theorem current_write_cases {other : Place} {stored : Seen}
    (found : (world.write place body).current other = some stored) :
    (other = place ∧ stored = world.next body) ∨
      (other ≠ place ∧ world.current other = some stored) := by
  by_cases same : other = place
  · subst same
    rw [write_current_self] at found
    exact .inl ⟨rfl, (some.inj found).symm⟩
  · rw [write_current_of_ne same] at found
    exact .inr ⟨same, found⟩

/-- Where an object is written, no other object has its uid, and it is marked if a version of it
was. -/
theorem Sound.write (sound : Sound world)
    (alone : ∀ q v, world.current q = some v → uidOf v.object = uidOf body → q = place)
    (mark : ∀ entry ∈ world.past, isDeleting entry.2.object = true →
      uidOf body = uidOf entry.2.object →
      isDeleting body = true) : Sound (world.write place body) := by
  refine ⟨sound.versions.write place body, fun q v q' v' at1 at2 same => ?_,
    fun entry member deleting q v at1 same => ?_⟩
  · rcases current_write_cases at1 with ⟨rfl, rfl⟩ | ⟨-, was⟩ <;>
      rcases current_write_cases at2 with ⟨rfl, rfl⟩ | ⟨-, wasToo⟩
    · rfl
    · exact (alone q' v' wasToo same.symm).symm
    · exact alone q v was same
    · exact sound.uids q v q' v' was wasToo same
  · rcases current_write_cases at1 with ⟨-, rfl⟩ | ⟨apart, at1⟩ <;> rcases mem_cons.mp
      member with rfl | past
    · exact deleting
    · exact mark entry past deleting same
    · exact absurd (alone q v at1 same) apart
    · exact sound.doomed entry past deleting q v at1 same

variable (change : Change world after)

include change

theorem Change.past_subset : world.past ⊆ after.past := by
  cases change with
  | same | remove => exact Subset.refl _
  | write | create => exact subset_cons_self ..

theorem Change.sound (sound : Sound world) : Sound after := by
  cases change with
  | same => exact sound
  | @write place old body found uid mark =>
    refine sound.write (fun q v at1 same => sound.uids q v place old at1 found (same.trans uid)) ?_
    exact fun entry past deleting same =>
      mark (sound.doomed entry past deleting place old found (uid.symm.trans same))
  | @create place body absent unused =>
    refine sound.write (fun q v at1 same => ?_) fun entry past _ same => ?_
    · exact absurd same (unused _ (sound.versions.stored q v at1)).1
    · exact absurd same.symm (unused entry past).1
  | remove place =>
    exact ⟨sound.versions.remove place,
      fun q v q' v' at1 at2 => sound.uids q v q' v' (current_of_remove at1) (current_of_remove at2),
      fun entry member deleting q v at1 => sound.doomed entry member deleting q v
        (current_of_remove at1)⟩

theorem Change.missing (onRecord : (recorded, child) ∈ world.past)
    (isRef : ref ∈ ownerRefs child.object) (missing : Missing world place ref) :
    Missing after place ref := by
  intro stored found
  cases change with
  | same => exact missing stored found
  | @write target old body at1 uid mark =>
    rcases current_write_cases found with ⟨rfl, rfl⟩ | ⟨-, found⟩
    · change ref["uid"].asStr? ≠ some (uidOf body)
      rw [uid]
      exact missing old at1
    · exact missing stored found
  | @create target body absent unused =>
    rcases current_write_cases found with ⟨rfl, rfl⟩ | ⟨-, found⟩
    · exact (unused _ onRecord).2 ref isRef
    · exact missing stored found
  | remove target => exact missing stored (current_of_remove found)

theorem Change.dead (onRecord : (recorded, child) ∈ world.past)
    (isRef : ref ∈ ownerRefs child.object) (dead : Dead world child.object ref) :
    Dead after child.object ref := by
  intro target owner found names
  cases change with
  | same => exact dead target owner found names
  | @write place old body at1 uid mark =>
    rcases current_write_cases found with ⟨rfl, rfl⟩ | ⟨-, found⟩
    · refine mark (dead target old at1 ?_)
      have ⟨version, kind, name, isUid, space⟩ := names
      exact ⟨version, kind, name, isUid.trans (congrArg some uid), space⟩
    · exact dead target owner found names
  | @create place body absent unused =>
    rcases current_write_cases found with ⟨rfl, rfl⟩ | ⟨-, found⟩
    · exact absurd names.2.2.2.1 ((unused _ onRecord).2 ref isRef)
    · exact dead target owner found names
  | remove place => exact dead target owner (current_of_remove found) names

end Rustkube.Gc
