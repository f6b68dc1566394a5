import Rustkube.AvailabilityFloor
import Rustkube.Lib.Versions

/- A Deployment under `Recreate`, its ReplicaSets and their Pods: passes whose calls interleave. -/
namespace Rustkube.Recreate

open List Option Json Controllers Rollout ReplicaSet Versions

section

variable (hash : Value → String) (deploy : Value)

/-- The labels that a selector asks for, with the hash of the template. -/
def hashedLabels (labels : Value) : Value :=
  (if labels.isNull then .object [] else labels).insert "pod-template-hash"
    (.string (hash deploy["spec"]["template"]))

def hashedTemplate : Value :=
  let template := deploy["spec"]["template"]
  (template.assignIn "metadata" "labels"
    (hashedLabels hash deploy template["metadata"]["labels"])).getD template

/-- `create_replicaset`: with no replicas, to be scaled by the passes that follow. The server gives
the uid. -/
def buildReplicaset (revision : Nat) (uid : String) : Value :=
  let labels := hashedLabels hash deploy deploy["spec"]["selector"]["matchLabels"]
  .object [("apiVersion", .string "apps/v1"), ("kind", .string "ReplicaSet"),
    ("metadata", .object [("name", .string (currentName hash deploy)), ("uid", .string uid),
      ("namespace", .string (namespaceName deploy)), ("labels", labels),
      ("annotations", .object [(revisionKey, .string (toString revision))]),
      ("ownerReferences", .array [ownerReference "apps/v1" "Deployment" deploy])]),
    ("spec", .object [("replicas", .number 0), ("selector", .object [("matchLabels", labels)]),
      ("template", hashedTemplate hash deploy)])]

def setRevision (revision : Nat) (rs : Value) : Value :=
  let annotations := rs["metadata"]["annotations"]
  (rs.assignIn "metadata" "annotations"
    ((if annotations.isNull then .object [] else annotations).insert
    revisionKey (.string (toString revision)))).getD rs

/-- `build_pod_from_template` -/
def buildPod (rs : Value) (suffix : String) : Value :=
  let template := rs["spec"]["template"]
  let labels := template["metadata"]["labels"]
  .object [("apiVersion", .string "v1"), ("kind", .string "Pod"),
    ("metadata", .object [("name", .string (nameOf rs ++ "-" ++ suffix)),
      ("namespace", .string (namespaceName rs)),
        ("labels", if labels.isNull then .object [] else labels),
      ("ownerReferences", .array [ownerReference "apps/v1" "ReplicaSet" rs])]),
    ("spec", template["spec"]), ("status", .object [("phase", .string "Pending")])]

end

section

/-- What a Deployment's pass writes. -/
inductive Write where
  | make (revision : Nat)
  | revise (seen : Version Value) (revision : Nat)
  | scale (seen : Version Value) (replicas : Nat)
  | prune (seen : Version Value)
deriving DecidableEq

/-- The idle ReplicaSets beyond the history that is kept, the oldest first. -/
def prunable (olds : List RsView) (limit : Nat) : List String :=
  let idle := (olds.filter (·.specReplicas = 0)).insertionSort fun left right =>
    left.revision ≤ right.revision
  (idle.take (idle.length - limit)).map RsView.name

def byName (sets : List (Version Value)) (name : String) : Option (Version Value) :=
  sets.find? (·.object["metadata"]["name"].asStr? = some name)

/-- A ReplicaSet that is told so many already is not written. -/
def scaling (replicas : Nat) (seen : Version Value) : Option Write :=
  if count? seen.object["spec"]["replicas"] = some replicas then none
    else some (.scale seen replicas)

variable (hash : Value → String) (deploy : Value) (view : List (Version Value))

def mine : List (Version Value) := view.filter (ownedBy ·.object (uidOf deploy))

/-- The ReplicaSet for the template is made, or gets the newest revision when it is selected
again. -/
def selecting : List Write :=
  let sets := view.map Version.object
  match byName (mine deploy view) (currentName hash deploy) with
  | some rs =>
    if (viewOf rs.object).revision < highestRevision (views deploy sets) then
      [.revise rs (newView hash deploy sets).revision]
    else []
  | none => [.make (newView hash deploy sets).revision]

/-- The plan's counts. A ReplicaSet that was made in this pass is scaled in the next. -/
def scalings : List Write :=
  let sets := view.map Version.object
  let plan := planOf hash deploy sets
  let up := if plan.newReplicas ≠ (newView hash deploy sets).specReplicas then
    (byName (mine deploy view) (currentName hash deploy)).toList.filterMap
      (scaling plan.newReplicas)
    else []
  up ++ plan.old.filterMap fun (name, replicas) =>
    (byName (mine deploy view) name).bind (scaling replicas)

def prunings : List Write :=
  let sets := view.map Version.object
  let plan := planOf hash deploy sets
  if plan.old.isEmpty ∧ plan.newReplicas = desiredReplicas deploy then
    (prunable (olds hash deploy sets)
      ((count? deploy["spec"]["revisionHistoryLimit"]).getD 10)).filterMap
      fun name => (byName (mine deploy view) name).map .prune
  else []

/-- `reconcile_deployment`, up to its status. -/
def writes : List Write :=
  if deploy["metadata"]["name"].asStr?.isNone ∨ isDeleting deploy then []
  else if deploy["spec"]["paused"].asBool?.getD false then selecting hash deploy view
  else selecting hash deploy view ++ scalings hash deploy view ++ prunings hash deploy view

end

section

/-- A ReplicaSet's pass: the Pods it still has to delete, and then how many it makes. -/
structure SetPass where
  rs : Value
  deletes : List Value
  creates : Nat

structure State where
  sets : Versions String Value
  pods : List Value
  /-- what the Deployment's passes have left to write -/
  rollouts : List (List Write)
  passes : List SetPass

inductive Action where
  /-- a pass of the Deployment, from what it sees of its ReplicaSets -/
  | reconcile (view : List (Version Value))
  | write (index : Nat) (uid : String) (outcome : Outcome)
  /-- a pass of a ReplicaSet, from what it sees of the Pods -/
  | sync (name : String) (createAllowed : Bool) (view : List Value)
  | delete (index : Nat) (time : String) (lands : Bool)
  | create (index : Nat) (suffix : String) (lands : Bool)
  /-- somebody writes a ReplicaSet -/
  | touch (name : String) (object : Value)
  /-- a Pod runs, ends or is deleted -/
  | change (pod after : Value)
  /-- a Pod is gone -/
  | gone (pod : Value)

variable (hash : Value → String) (deploy : Value)

def Write.land (sets : Versions String Value) (uid : String) :
    Write → Option (Versions String Value)
  | .make revision =>
    if (sets.current (currentName hash deploy)).isNone then
      some (sets.write (currentName hash deploy) (buildReplicaset hash deploy revision uid))
    else none
  | .revise seen revision =>
    sets.swap (nameOf seen.object) (setRevision revision seen.object) seen.number
  | .scale seen replicas =>
    sets.swap (nameOf seen.object) (Rollout.scale replicas seen.object) seen.number
  | .prune seen =>
    if (sets.current (nameOf seen.object)).map Version.number = some seen.number then
      some (sets.remove (nameOf seen.object))
    else none

/-- A pass ends with the first write that fails, unless it was pruning. -/
def Write.afterError (rest : List Write) : Write → List Write
  | .prune _ => rest
  | _ => []

def step (state : State) : Action → Option State
  | .reconcile view => some { state with rollouts := state.rollouts ++ [writes hash deploy view] }
  | .write index uid outcome =>
    match state.rollouts[index]? with
    | some (write :: rest) =>
      match outcome, write.land hash deploy state.sets uid with
      | .served, some sets => some { state with sets, rollouts := state.rollouts.set index rest }
      | .lost, some sets =>
        some { state with sets, rollouts := state.rollouts.set index (write.afterError rest) }
      | _, _ => some { state with rollouts := state.rollouts.set index (write.afterError rest) }
    | _ => none
  | .sync name createAllowed view =>
    match state.sets.current name with
    | some rs =>
      match reconcileReplicaset createAllowed rs.object view with
      | some pass => some { state with
          passes := state.passes ++ [⟨rs.object, pass.collected ++ pass.excess, pass.creates⟩] }
      | none => some state
    | none => none
  | .delete index time lands =>
    match state.passes[index]? with
    | some ⟨rs, pod :: rest, creates⟩ => some { state with
        pods := if lands then
          state.pods.map fun stored => if nameOf stored = nameOf pod then marked time stored
            else stored
          else state.pods
        passes := state.passes.set index ⟨rs, rest, creates⟩ }
    | _ => none
  | .create index suffix lands =>
    match state.passes[index]? with
    | some ⟨rs, [], creates + 1⟩ => some { state with
        pods := if lands then state.pods ++ [buildPod rs suffix] else state.pods
        passes := state.passes.set index ⟨rs, [], creates⟩ }
    | _ => none
  | .touch name object =>
    (state.sets.current name).map fun _ => { state with sets := state.sets.write name object }
  | .change pod after => some { state with
      pods := state.pods.map fun stored => if stored = pod then after else stored }
  | .gone pod => some { state with pods := state.pods.filter (· ≠ pod) }

/-- A Pod of one of the older ReplicaSets. -/
def OfOld (sets : Versions String Value) (pod : Value) : Prop :=
  ∃ entry ∈ sets.past, entry.1 ≠ currentName hash deploy ∧ ownedBy pod (uidOf entry.2.object) = true

instance (sets : Versions String Value) (pod : Value) : Decidable (OfOld hash deploy sets pod) :=
  inferInstanceAs (Decidable (∃ entry ∈ sets.past, _))

/-- The feed may be behind, each object on its own, but it knows every older ReplicaSet. -/
def Viewed (sets : Versions String Value) (view : List (Version Value)) : Prop :=
  (∀ seen ∈ view, (nameOf seen.object, seen) ∈ sets.past) ∧
    ∀ entry ∈ sets.past, entry.1 ≠ currentName hash deploy → (sets.current entry.1).isSome →
      ∃ seen ∈ view, nameOf seen.object = entry.1

instance (sets : Versions String Value) (view : List (Version Value)) :
    Decidable (Viewed hash deploy sets view) :=
  inferInstanceAs (Decidable (_ ∧ _))

/-- A write of a ReplicaSet that leaves its name, its uid, its owner and its count alone. -/
def Keeps (stored object : Value) : Prop :=
  object["metadata"]["name"] = stored["metadata"]["name"] ∧
    object["metadata"]["uid"] = stored["metadata"]["uid"] ∧
    object["metadata"]["ownerReferences"] = stored["metadata"]["ownerReferences"] ∧
    object["spec"]["replicas"] = stored["spec"]["replicas"]

instance (stored object : Value) : Decidable (Keeps stored object) :=
  inferInstanceAs (Decidable (_ ∧ _))

/-- What the server and the nodes do: uids are not used twice, and a Pod that has ended stays so. -/
def Permitted (state : State) : Action → Prop
  | .reconcile view => Viewed hash deploy state.sets view
  | .write _ uid _ => ∀ entry ∈ state.sets.past, uidOf entry.2.object ≠ uid
  | .touch name object => ∀ stored ∈ state.sets.current name, Keeps stored.object object
  | .change pod after =>
    after["metadata"]["ownerReferences"] = pod["metadata"]["ownerReferences"] ∧
      (hasEnded pod = true → hasEnded after = true)
  | _ => True

instance (state : State) (action : Action) : Decidable (Permitted hash deploy state action) :=
  match action with
  | .reconcile _ => inferInstanceAs (Decidable (Viewed _ _ _ _))
  | .write _ _ _ => inferInstanceAs (Decidable (∀ entry ∈ state.sets.past, _))
  | .touch name _ => inferInstanceAs (Decidable (∀ stored ∈ state.sets.current name, _))
  | .change _ _ => inferInstanceAs (Decidable (_ ∧ _))
  | .sync _ _ _ | .delete _ _ _ | .create _ _ _ | .gone _ => inferInstanceAs (Decidable True)

/-- The Pods of the older ReplicaSets have ended, and none are still to be made. -/
def OldsGone (state : State) : Prop :=
  (∀ pod ∈ state.pods, OfOld hash deploy state.sets pod → hasEnded pod = true) ∧
    ∀ pass ∈ state.passes, nameOf pass.rs ≠ currentName hash deploy → pass.creates = 0

instance (state : State) : Decidable (OldsGone hash deploy state) :=
  inferInstanceAs (Decidable (_ ∧ _))

def Write.Raises : Write → Prop
  | .scale _ replicas => 0 < replicas
  | _ => False

instance (write : Write) : Decidable write.Raises :=
  match write with
  | .scale _ replicas => inferInstanceAs (Decidable (0 < replicas))
  | .make _ | .revise _ _ | .prune _ => inferInstanceAs (Decidable False)

/-- A scale-up is written once nothing of the older ReplicaSets is left; and what these are told
adds up without an overflow. -/
def Waits (state : State) : Action → Prop
  | .reconcile view => totalReplicas (olds hash deploy (view.map Version.object)) < 2 ^ 64
  | .write index _ outcome => outcome ≠ .failed →
      ∀ write ∈ state.rollouts[index]?.bind List.head?, write.Raises → OldsGone hash deploy state
  | _ => True

instance (state : State) (action : Action) : Decidable (Waits hash deploy state action) :=
  match action with
  | .reconcile _ => inferInstanceAs (Decidable (_ < _))
  | .write index _ _ =>
    inferInstanceAs (Decidable (_ → ∀ write ∈ state.rollouts[index]?.bind List.head?, _ → _))
  | .sync _ _ _ | .delete _ _ _ | .create _ _ _ | .touch _ _ | .change _ _ | .gone _ =>
    inferInstanceAs (Decidable True)

end

variable {hash : Value → String} {deploy : Value} {view : List (Version Value)}
  {seen : Version Value} {replicas : Nat}

theorem mem_of_byName {sets : List (Version Value)} {name : String}
    (found : byName sets name = some seen) : seen ∈ sets ∧ nameOf seen.object = name := by
  refine ⟨mem_of_find?_eq_some found, ?_⟩
  have named : seen.object["metadata"]["name"].asStr? = some name := by
    simpa using find?_some found
  simp [nameOf, textOf, named]

theorem scaling_eq_some {write : Write} (scaled : scaling replicas seen = some write) :
    write = .scale seen replicas := by
  unfold scaling at scaled
  split_ifs at scaled
  exact (some.inj scaled).symm

theorem planOf_recreate (recreate : (strategy deploy (desiredReplicas deploy)).2.2 = true)
    (sets : List Value) :
    (∀ entry ∈ (planOf hash deploy sets).old, entry.2 = 0) ∧
      ((planOf hash deploy sets).newReplicas = 0 ∨
        (planOf hash deploy sets).newReplicas = desiredReplicas deploy ∧
          word (totalReplicas (olds hash deploy sets)) = 0) := by
  have isRecreate : planOf hash deploy sets =
      planRecreate (desiredReplicas deploy) (olds hash deploy sets) := by
    unfold planOf
    dsimp only
    rw [if_pos recreate]
  rw [isRecreate]
  unfold planRecreate
  split_ifs with running
  · refine ⟨fun entry member => ?_, .inl rfl⟩
    obtain ⟨rs, -, rfl⟩ := mem_map.mp member
    rfl
  · refine ⟨fun entry member => ?_, .inr ⟨rfl, by omega⟩⟩
    cases member

/-- What a write was decided on: a scale-up is of the new ReplicaSet, with the older ones told to
run nothing. -/
def Decided (hash : Value → String) (deploy : Value) (view : List (Version Value)) : Write → Prop
  | .make _ => True
  | .revise seen _ => seen ∈ view
  | .scale seen replicas => seen ∈ view ∧ replicas < 2 ^ 64 ∧
      (0 < replicas → nameOf seen.object = currentName hash deploy ∧
        word (totalReplicas (olds hash deploy (view.map Version.object))) = 0)
  | .prune seen => seen ∈ view

theorem selecting_decided :
    ∀ write ∈ selecting hash deploy view, Decided hash deploy view write := by
  intro write member
  unfold selecting at member
  dsimp only at member
  split at member
  · next rs found =>
    split_ifs at member
    · obtain rfl := mem_singleton.mp member
      exact mem_of_mem_filter (mem_of_byName found).1
    · cases member
  · obtain rfl := mem_singleton.mp member
    trivial

theorem scalings_decided (recreate : (strategy deploy (desiredReplicas deploy)).2.2 = true) :
    ∀ write ∈ scalings hash deploy view, Decided hash deploy view write := by
  have ⟨down, up⟩ := @planOf_recreate hash deploy recreate (view.map Version.object)
  intro write member
  rcases mem_append.mp member with raised | lowered
  · split_ifs at raised
    · have ⟨rs, isCurrent, scaled⟩ := mem_filterMap.mp raised
      have ⟨inView, named⟩ := mem_of_byName (mem_toList.mp isCurrent)
      obtain rfl := scaling_eq_some scaled
      have small := desiredReplicas_lt deploy
      rcases up with zero | ⟨all, idle⟩
      · exact ⟨mem_of_mem_filter inView, by omega, by omega⟩
      · exact ⟨mem_of_mem_filter inView, by omega, fun _ => ⟨named, idle⟩⟩
    · cases raised
  · have ⟨⟨name, count⟩, planned, scaled⟩ := mem_filterMap.mp lowered
    have ⟨rs, found, isScaled⟩ := bind_eq_some_iff.mp scaled
    obtain rfl := scaling_eq_some isScaled
    have zero : count = 0 := down _ planned
    exact ⟨mem_of_mem_filter (mem_of_byName found).1, by omega, by omega⟩

theorem prunings_decided : ∀ write ∈ prunings hash deploy view, Decided hash deploy view write := by
  intro write member
  unfold prunings at member
  dsimp only at member
  split_ifs at member
  · have ⟨name, idle, pruned⟩ := mem_filterMap.mp member
    obtain ⟨rs, found, rfl⟩ := map_eq_some_iff.mp pruned
    exact mem_of_mem_filter (mem_of_byName found).1
  · cases member

theorem writes_decided (recreate : (strategy deploy (desiredReplicas deploy)).2.2 = true) :
    ∀ write ∈ writes hash deploy view, Decided hash deploy view write := by
  intro write member
  unfold writes at member
  split_ifs at member
  · cases member
  · exact selecting_decided write member
  · rcases mem_append.mp member with front | pruned
    · rcases mem_append.mp front with selected | scaled
      · exact selecting_decided write selected
      · exact scalings_decided recreate write scaled
    · exact prunings_decided write pruned

/- What a rollout under `Recreate` keeps while ReplicaSets are written. -/

variable {hash : Value → String} {deploy : Value}

/-- An older ReplicaSet that is told to run nothing. -/
def idleMark (hash : Value → String) (deploy rs : Value) : Option Unit :=
  if nameOf rs ≠ currentName hash deploy ∧ ReplicaSet.desired rs = 0 then some () else none

/-- What holds of a ReplicaSet on record: it is named as it is stored, it is the Deployment's, and
it holds a count. -/
structure Kept (deploy : Value) (name : String) (rs : Value) : Prop where
  named : nameOf rs = name
  owned : ownedBy rs (uidOf deploy) = true
  counted : (count? rs["spec"]["replicas"]).isSome = true

/-- What holds of the ReplicaSets, whatever the passes do. An older one that is told to run nothing
stays so. -/
structure SetsSound (hash : Value → String) (deploy : Value) (sets : Versions String Value) :
    Prop where
  sound : sets.Sound
  kept : ∀ entry ∈ sets.past, Kept deploy entry.1 entry.2.object
  uids : ∀ entry ∈ sets.past, ∀ other ∈ sets.past,
    uidOf entry.2.object = uidOf other.2.object → entry.1 = other.1
  idle : Versions.Lasting (idleMark hash deploy) sets

/-- No older ReplicaSet is told to run anything. -/
def OldsIdle (hash : Value → String) (deploy : Value) (sets : Versions String Value) : Prop :=
  ∀ name stored, sets.current name = some stored → name ≠ currentName hash deploy →
    ReplicaSet.desired stored.object = 0

/-- The new ReplicaSet is told to run something, or a pass of it still makes Pods. -/
def NewRuns (hash : Value → String) (deploy : Value) (state : State) : Prop :=
  (∃ stored, state.sets.current (currentName hash deploy) = some stored ∧
    0 < ReplicaSet.desired stored.object) ∨
  ∃ pass ∈ state.passes, nameOf pass.rs = currentName hash deploy ∧ 0 < pass.creates

/-- What a Deployment's pass has left to write is on record, and a scale-up among it was decided on
with the older ReplicaSets idle. -/
def Pending (hash : Value → String) (deploy : Value) (sets : Versions String Value) : Write → Prop
  | .make _ => True
  | .revise seen _ => (nameOf seen.object, seen) ∈ sets.past
  | .scale seen replicas => (nameOf seen.object, seen) ∈ sets.past ∧ replicas < 2 ^ 64 ∧
      (0 < replicas → nameOf seen.object = currentName hash deploy ∧ OldsIdle hash deploy sets)
  | .prune _ => True

structure Invariant (hash : Value → String) (deploy : Value) (state : State) : Prop where
  sets : SetsSound hash deploy state.sets
  rollouts : ∀ rollout ∈ state.rollouts, ∀ write ∈ rollout, Pending hash deploy state.sets write
  passes : ∀ pass ∈ state.passes, ∃ number, (nameOf pass.rs, ⟨number, pass.rs⟩) ∈ state.sets.past
  gone : NewRuns hash deploy state → OldsIdle hash deploy state.sets ∧ OldsGone hash deploy state

variable {sets after : Versions String Value} {name : String} {stored : Version Value}
  {body : Value}

variable {rs : Value}

theorem idleMark_iff : idleMark hash deploy rs = some () ↔
    nameOf rs ≠ currentName hash deploy ∧ desired rs = 0 := by
  unfold idleMark
  split_ifs with idle
  · exact ⟨fun _ => idle, fun _ => rfl⟩
  · exact ⟨fun marked => absurd marked (by simp), fun both => absurd both idle⟩

/-- A write over what is stored that keeps its name, uid and owner, and does not wake an older
one. -/
structure Rewrites (hash : Value → String) (deploy stored body : Value) : Prop where
  named : nameOf body = nameOf stored
  uid : uidOf body = uidOf stored
  owned : ownedBy body (uidOf deploy) = ownedBy stored (uidOf deploy)
  counted : (count? body["spec"]["replicas"]).isSome = true
  lowers : nameOf stored ≠ currentName hash deploy → ReplicaSet.desired stored = 0 →
    ReplicaSet.desired body = 0

section

variable (sound : SetsSound hash deploy sets)

include sound

section

variable (found : sets.current name = some stored)

include found

theorem SetsSound.write
    (rewrites : Rewrites hash deploy stored.object body) :
    SetsSound hash deploy (sets.write name body) := by
  have recorded := sound.sound.stored name stored found
  have isKept := sound.kept _ recorded
  refine ⟨sound.sound.write name body, forall_mem_cons.mpr ⟨⟨rewrites.named.trans isKept.named,
      rewrites.owned.trans isKept.owned, rewrites.counted⟩, sound.kept⟩,
    fun entry member other found same => ?_, sound.idle.write found fun _ marked => ?_⟩
  · rcases mem_cons.mp member with rfl | old <;> rcases mem_cons.mp found with rfl | past
    · rfl
    · exact sound.uids _ recorded other past (rewrites.uid.symm.trans same)
    · exact sound.uids entry old (name, stored) recorded (same.trans rewrites.uid)
    · exact sound.uids entry old other past same
  · have ⟨isOld, idle⟩ := idleMark_iff.mp marked
    exact idleMark_iff.mpr ⟨rewrites.named ▸ isOld, rewrites.lowers isOld idle⟩

theorem ofOld_write
    (uid : uidOf body = uidOf stored.object) {pod : Value} :
    OfOld hash deploy (sets.write name body) pod ↔ OfOld hash deploy sets pod := by
  constructor
  · rintro ⟨entry, member, isOld, owned⟩
    rcases mem_cons.mp member with rfl | old
    · exact ⟨_, sound.sound.stored name stored found, isOld, by rwa [← uid]⟩
    · exact ⟨entry, old, isOld, owned⟩
  · rintro ⟨entry, member, isOld, owned⟩
    exact ⟨entry, .tail _ member, isOld, owned⟩

theorem OldsIdle.write (idle : OldsIdle hash deploy sets)
    (rewrites : Rewrites hash deploy stored.object body) :
    OldsIdle hash deploy (sets.write name body) := by
  intro other version current isOld
  by_cases same : other = name
  · subst same
    rw [write_current_self] at current
    cases current
    have isNamed := (sound.kept _ (sound.sound.stored _ _ found)).named
    exact rewrites.lowers (isNamed.symm ▸ isOld) (idle other stored found isOld)
  · rw [write_current_of_ne same] at current
    exact idle other version current isOld

end

end

theorem Pending.mono {write : Write} (pending : Pending hash deploy sets write)
    (grows : sets.past ⊆ after.past)
    (idle : OldsIdle hash deploy sets → OldsIdle hash deploy after) :
    Pending hash deploy after write := by
  cases write with
  | make revision => trivial
  | revise seen revision => exact grows pending
  | scale seen replicas =>
    have ⟨recorded, small, decided⟩ := pending
    exact ⟨grows recorded, small, fun raises => ⟨(decided raises).1, idle (decided raises).2⟩⟩
  | prune seen => exact pending

variable {state : State}

/-- A write over a stored ReplicaSet, if nothing of the older ones is left where it wakes the new
one. -/
theorem Invariant.put (inv : Invariant hash deploy state)
    (found : state.sets.current name = some stored)
    (rewrites : Rewrites hash deploy stored.object body)
    (rises : name = currentName hash deploy → 0 < desired body →
      0 < desired stored.object ∨
        OldsIdle hash deploy state.sets ∧ OldsGone hash deploy state) :
    Invariant hash deploy { state with sets := state.sets.write name body } := by
  have grows : state.sets.past ⊆ (state.sets.write name body).past := fun _ member =>
    .tail _ member
  have idle : OldsIdle hash deploy state.sets → OldsIdle hash deploy (state.sets.write name body) :=
    fun before => before.write inv.sets found rewrites
  refine ⟨inv.sets.write found rewrites, fun rollout member write inside =>
    (inv.rollouts rollout member write inside).mono grows idle, fun pass member => ?_,
      fun runs => ?_⟩
  · have ⟨number, recorded⟩ := inv.passes pass member
    exact ⟨number, grows recorded⟩
  · have before : OldsIdle hash deploy state.sets ∧ OldsGone hash deploy state := by
      rcases runs with ⟨version, current, positive⟩ | making
      · by_cases same : currentName hash deploy = name
        · rw [same] at current
          rw [write_current_self] at current
          cases current
          rcases rises same.symm positive with ran | gone
          · exact inv.gone (.inl ⟨stored, same ▸ found, ran⟩)
          · exact gone
        · rw [write_current_of_ne same] at current
          exact inv.gone (.inl ⟨version, current, positive⟩)
      · exact inv.gone (.inr making)
    exact ⟨idle before.1, fun pod member isOld =>
      before.2.1 pod member ((ofOld_write inv.sets found rewrites.uid).mp isOld), before.2.2⟩

variable {replicas : Nat}

theorem desired_of_counted
    (counted : count? rs["spec"]["replicas"] = some replicas) : desired rs = replicas := by
  rw [desired, counted, Option.getD_some]

section

variable (counted : (count? rs["spec"]["replicas"]).isSome = true)

include counted

theorem count_scale (small : replicas < 2 ^ 64) :
    count? (scale replicas rs)["spec"]["replicas"] = some replicas := by
  unfold scale
  split_ifs with same
  · exact same
  · cases written : rs.assignIn "spec" "replicas" (.number replicas) with
    | none =>
      rw [replicas_of_assignIn_none written] at counted
      cases counted
    | some after => rw [Option.getD_some, Value.assignIn_self written, count?_number small]

theorem rewrites_scale (small : replicas < 2 ^ 64)
    (lowers : nameOf rs ≠ currentName hash deploy → replicas = 0) :
    Rewrites hash deploy rs (scale replicas rs) := by
  have metadata := scale_metadata replicas rs
  have count := count_scale counted small
  refine ⟨?_, ?_, ?_, by rw [count]; rfl, fun isOld _ => ?_⟩
  · rw [nameOf, metadata, nameOf]
  · rw [uidOf, metadata, uidOf]
  · rw [ownedBy, ownerRefs, metadata, ownedBy, ownerRefs]
  · rw [desired_of_counted count, lowers isOld]

theorem Keeps.rewrites (keeps : Keeps rs body) : Rewrites hash deploy rs body := by
  have ⟨name, uid, owner, replicas⟩ := keeps
  refine ⟨?_, ?_, ?_, by rwa [replicas], fun _ idle => ?_⟩
  · rw [nameOf, name, nameOf]
  · rw [uidOf, uid, uidOf]
  · rw [ownedBy, ownerRefs, owner, ownedBy, ownerRefs]
  · rwa [desired, replicas]

end

theorem keeps_setRevision (revision : Nat) (rs : Value) : Keeps rs (setRevision revision rs) := by
  unfold setRevision
  dsimp only
  cases written : rs.assignIn "metadata" "annotations" _ with
  | none => exact ⟨rfl, rfl, rfl, rfl⟩
  | some after =>
    rw [Option.getD_some]
    refine ⟨?_, ?_, ?_, ?_⟩
    · exact Value.assignIn_inner_of_ne written (by decide)
    · exact Value.assignIn_inner_of_ne written (by decide)
    · exact Value.assignIn_inner_of_ne written (by decide)
    · rw [Value.assignIn_of_ne written (by decide)]

variable (inv : Invariant hash deploy state) {uid : String}

include inv

theorem Invariant.make (revision : Nat)
    (fresh : ∀ entry ∈ state.sets.past, uidOf entry.2.object ≠ uid) :
    Invariant hash deploy { state with
      sets := state.sets.write (currentName hash deploy) (buildReplicaset hash deploy revision uid)
          } := by
  set made := buildReplicaset hash deploy revision uid with isMade
  have named : nameOf made = currentName hash deploy := rfl
  have owned : ownedBy made (uidOf deploy) = true := by
    have refs : ownerRefs made = [ownerReference "apps/v1" "Deployment" deploy] := rfl
    simp [ownedBy, refs]
  have counted : count? made["spec"]["replicas"] = some 0 := by
    have zero : made["spec"]["replicas"] = .number (0 : Nat) := rfl
    rw [zero, count?_number (by decide)]
  have isUid : uidOf made = uid := rfl
  have idle : OldsIdle hash deploy state.sets →
      OldsIdle hash deploy (state.sets.write (currentName hash deploy) made) := by
    intro before other version current isOld
    rw [write_current_of_ne isOld] at current
    exact before other version current isOld
  refine ⟨⟨inv.sets.sound.write _ _, fun entry member => ?_,
    fun entry member other present same => ?_,
    inv.sets.idle.write_keeping fun version was member marked => ?_⟩,
    fun rollout member write inside => (inv.rollouts rollout member write inside).mono
      (fun _ past => .tail _ past) idle, fun pass member => ?_, fun runs => ?_⟩
  · rcases mem_cons.mp member with rfl | old
    · exact ⟨named, owned, by rw [Versions.next, counted]; rfl⟩
    · exact inv.sets.kept entry old
  · rcases mem_cons.mp member with rfl | old <;> rcases mem_cons.mp present with rfl | past
    · rfl
    · exact absurd (same.symm.trans isUid) (fresh other past)
    · exact absurd (same.trans isUid) (fresh entry old)
    · exact inv.sets.uids entry old other past same
  · obtain ⟨isOld, -⟩ := idleMark_iff.mp marked
    exact absurd (inv.sets.kept _ member).named isOld
  · have ⟨number, recorded⟩ := inv.passes pass member
    exact ⟨number, .tail _ recorded⟩
  · have before : NewRuns hash deploy state := by
      rcases runs with ⟨version, current, positive⟩ | making
      · rw [write_current_self] at current
        cases current
        rw [Versions.next, desired_of_counted counted] at positive
        omega
      · exact .inr making
    have ⟨isIdle, pods, passes⟩ := inv.gone before
    refine ⟨idle isIdle, fun pod member isOld => pods pod member ?_, passes⟩
    have ⟨entry, recorded, older, isOwned⟩ := isOld
    rcases mem_cons.mp recorded with rfl | past
    · exact absurd rfl older
    · exact ⟨entry, past, older, isOwned⟩

theorem Invariant.remove (name : String) :
    Invariant hash deploy { state with sets := state.sets.remove name } := by
  have idle : OldsIdle hash deploy state.sets → OldsIdle hash deploy (state.sets.remove name) :=
    fun before other version current => before other version (current_of_remove current)
  refine ⟨⟨inv.sets.sound.remove name, inv.sets.kept, inv.sets.uids, inv.sets.idle.remove name⟩,
    fun rollout member write inside => (inv.rollouts rollout member write inside).mono
      (Subset.refl _) idle, inv.passes, fun runs => ?_⟩
  have before : NewRuns hash deploy state := by
    rcases runs with ⟨version, current, positive⟩ | making
    · exact .inl ⟨version, current_of_remove current, positive⟩
    · exact .inr making
  exact ⟨idle (inv.gone before).1, (inv.gone before).2⟩

/-- A write that lands. -/
theorem Invariant.land {write : Write}
    (pending : Pending hash deploy state.sets write)
    (fresh : ∀ entry ∈ state.sets.past, uidOf entry.2.object ≠ uid)
    (waits : write.Raises → OldsGone hash deploy state)
    (landed : write.land hash deploy state.sets uid = some sets) :
    Invariant hash deploy { state with sets } := by
  cases write with
  | make revision =>
    simp only [Write.land] at landed
    split_ifs at landed
    cases landed
    exact inv.make revision fresh
  | revise seen revision =>
    obtain ⟨current, rfl⟩ := inv.sets.sound.swap_spec pending landed
    have counted := (inv.sets.kept _ pending).counted
    have keeps := keeps_setRevision revision seen.object
    refine inv.put current (keeps.rewrites counted) fun _ positive => .inl ?_
    rwa [desired, keeps.2.2.2] at positive
  | scale seen replicas =>
    have ⟨recorded, small, decided⟩ := pending
    obtain ⟨current, rfl⟩ := inv.sets.sound.swap_spec recorded landed
    have counted := (inv.sets.kept _ recorded).counted
    have lowers : nameOf seen.object ≠ currentName hash deploy → replicas = 0 := by
      intro isOld
      by_contra nonzero
      exact isOld (decided (by omega)).1
    refine inv.put current (rewrites_scale counted small lowers) fun _ positive => .inr ?_
    rw [desired_of_counted (count_scale counted small)] at positive
    exact ⟨(decided positive).2, waits positive⟩
  | prune seen =>
    simp only [Write.land] at landed
    split_ifs at landed
    cases landed
    exact inv.remove _

end Rustkube.Recreate
