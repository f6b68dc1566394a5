import Rustkube.Patch
import Rustkube.SchedulingState
import Mathlib.Data.List.ReduceOption

namespace Rustkube.Scheduler

open Option Patch Json Value

/-- The filters that do not look at resources (readiness, cordons, taints, selectors, affinity,
spread), and the scores. -/
structure Plugins where
  filters : (pod node : Value) → ClusterState → List Value → Except String Unit
  score : (pod node : Value) → NodeUsage → ClusterState → List Value → Int

/-- What the volume feeds say for one Pod: who else holds a ReadWriteOncePod claim, the nodes that
cannot reach its volumes, and its claims that are not bound, with the claim where there is one. -/
structure VolumeState where
  conflict : Option String
  refuses : Value → Bool
  unbound : List (String × Option Value)

/-- What a pass reads besides the state. -/
structure Sight where
  nodes : List Value
  volumes : VolumeState
  /-- The migration's `addedNodeSelector`. -/
  added : Option Value
  micros : String
  seconds : String
  /-- Some call of the pass failed: what it decided is not written. -/
  failed : Bool

def nodeName (node : Value) : String := node["metadata"]["name"].asStr?.getD ""

def ClusterState.used (cluster : ClusterState) (node : Value) : NodeUsage :=
  cluster.usage (nodeName node)

/-- The first of the best: the head of a stable sort by descending score. -/
def best (score : Value → Int) (nodes : List Value) : Option Value :=
  nodes.foldl (fun found node =>
    match found with
    | some chosen => if score chosen < score node then some node else some chosen
    | none => some node) none

section

variable (quantities : Quantities) (plugins : Plugins) (nodes : List Value) (cluster : ClusterState)

def runFilters (pod node : Value) : Except String Unit := do
  plugins.filters pod node cluster nodes
  resourceFitFilter quantities pod node (cluster.used node)

/-- The best of the nodes that pass. -/
def choose (pod : Value) (passes : Value → Bool) : Option Value :=
  best (fun node => plugins.score pod node (cluster.used node) cluster nodes)
      (nodes.filter fun node =>
    passes node && (runFilters quantities plugins nodes cluster pod node).isOk)

end

section

/-- `storm.io/scheduled-at`, to the microsecond. -/
def SCHEDULED_AT : String := "storm.io/scheduled-at"

/-- The Pod with annotations, if only none. -/
def withAnnotations (pod : Value) : Option Value :=
  if pod["metadata"]["annotations"].isObject then some pod
  else pod.assignIn "metadata" "annotations" (.object [])

def annotated (pod : Value) (name text : String) : Option Value := do
  let pod ← withAnnotations pod
  let annotations ← pod["metadata"]["annotations"].assign name (.string text)
  pod.assignIn "metadata" "annotations" annotations

def boundPod (pod : Value) (node : String) (sight : Sight) : Option Value := do
  let bound ← pod.assignIn "spec" "nodeName" (.string node)
  let bound ← annotated bound SCHEDULED_AT sight.micros
  let bound ← bound.assignIn "status" "phase" (.string "Pending")
  (bound.removeIn "status" "nominatedNodeName").assignIn "status" "conditions" (.array [.object [
    ("type", .string "PodScheduled"), ("status", .string "True"), ("reason", .string "Scheduled"),
    ("message", .string ("Bound to node " ++ node)),
      ("lastTransitionTime", .string sight.seconds)]])

def ANN_SELECTED_NODE : String := "volume.kubernetes.io/selected-node"

/-- `selected-node` on a claim that does not have it yet. A claim that is gone fails the pass. -/
def claimPatch (ns node name : String) (claim : Option Value) : Option (List (String × Value)) :=
  if (claim.bind fun claim =>
      claim["metadata"]["annotations"][ANN_SELECTED_NODE].asStr?).getD "" = node then some []
  else claim.map fun claim =>
    [("/api/v1/namespaces/" ++ ns ++ "/persistentvolumeclaims/" ++ name, .object
      [("metadata", .object [
      ("uid", claim["metadata"]["uid"]), ("resourceVersion", claim["metadata"]["resourceVersion"]),
      ("annotations", .object [(ANN_SELECTED_NODE, .string node)])])])]

/-- What a pass for a workload comes to. -/
inductive Decision where
  | nothing
  | bind (node : String) (body : Value)
  | waitingForVolumes (node : String) (patches : List (String × Value))
  | place (node : String) (patch : Value)
  | target (node : String) (patch : Value)

variable (quantities : Quantities) (plugins : Plugins) (nodes : List Value) (cluster : ClusterState)
  (sight : Sight)

def podNodes (node : Value) : Bool :=
  (podCountFilter node (cluster.used node)).isOk && !sight.volumes.refuses node

/-- `schedule_pod` once a node is chosen. Volumes come before the Pod. -/
def placePod (pod : Value) (node : String) : Option Decision :=
  if sight.volumes.unbound.isEmpty then (boundPod pod node sight).map (.bind node)
  else
    let ns := pod["metadata"]["namespace"].asStr?.getD "default"
    match sight.volumes.unbound.mapM fun claim => claimPatch ns node claim.1 claim.2 with
    | some patches => some (.waitingForVolumes node patches.flatten)
    | none => some .nothing

def schedulePod (pod : Value) : Option Decision :=
  if pod["metadata"]["name"].asStr?.isNone ∨ sight.volumes.conflict.isSome then some .nothing
  else
    match (choose quantities plugins nodes cluster pod (podNodes cluster sight)).bind fun chosen =>
        chosen["metadata"]["name"].asStr? with
    | some node => placePod sight pod node
    | none => some .nothing

end

section

variable (quantities : Quantities) (plugins : Plugins) (nodes : List Value) (cluster : ClusterState)

/-- A status patch that holds only for the version it was made from. -/
def statusPatch (vmi : Value) (status : Fields) : Value :=
  .object [("metadata", .object [("uid", vmi["metadata"]["uid"]),
    ("resourceVersion", vmi["metadata"]["resourceVersion"])]), ("status", .object status)]

/-- The status of a placed machine. A phase that the kubelet wrote is left. -/
def placedStatus (vmi : Value) (node : String) : Fields :=
  if (vmi["status"]["phase"].asStr?.filter (· ≠ "")).isNone then
    [("nodeName", .string node), ("phase", .string "Pending")]
  else [("nodeName", .string node)]

def scheduleVirtualMachine (vmi : Value) : Decision :=
  if vmi["metadata"]["name"].asStr?.getD "" = "" then .nothing
  else
    let chosen := choose quantities plugins nodes cluster (schedulingShim quantities vmi) fun _ =>
      true
    match (chosen.map nodeName).filter (· ≠ "") with
    | some node => .place node (statusPatch vmi (placedStatus vmi node))
    | none => .nothing

/-- A key that the machine selects on itself keeps its value. -/
def narrowed (own added : Fields) : Fields :=
  added.foldl (fun selector field =>
    if (Fields.get? selector field.1).isSome then selector
    else Fields.insert field.1 field.2 selector) own

def addNodeSelector (shim : Value) (added : Option Value) : Value :=
  match added.bind Value.asObject? with
  | none => shim
  | some fields => shim.insert "spec" (shim["spec"].insert "nodeSelector"
      (.object (narrowed (shim["spec"]["nodeSelector"].asObject?.getD []) fields)))

def scheduleMigrationTarget (vmi : Value) (added : Option Value) : Decision :=
  let source := (nodeOf vmi).getD ""
  let shim := addNodeSelector (schedulingShim quantities vmi) added
  let chosen := choose quantities plugins nodes cluster shim fun node => nodeName node ≠ source
  match (chosen.map nodeName).filter (· ≠ "") with
  | some node => .target node (statusPatch vmi
      [("migrationState", .object [("targetNode", .string node)])])
  | none => .nothing

end

/-- The nodes that a workload may be put on: the one it is held to, if it is held to one. -/
def candidates (assumed : Option String) (nodes : List Value) : List Value :=
  match assumed with
  | some name => nodes.filter fun node => node["metadata"]["name"] = .string name
  | none => nodes

/-- A pass, once its workload is pending and the snapshot is taken. `assumed` is the node that the
workload is held to. -/
def decision (quantities : Quantities) (plugins : Plugins) (vm : Bool) (object : Value)
    (cluster : ClusterState) (assumed : Option String) (sight : Sight) : Option Decision :=
  let nodes := candidates assumed sight.nodes
  if !vm then schedulePod quantities plugins nodes cluster sight object
  else if (nodeOf object).isSome then
    some (scheduleMigrationTarget quantities plugins nodes cluster object sight.added)
  else some (scheduleVirtualMachine quantities plugins nodes cluster object)

section

variable {quantities : Quantities} {plugins : Plugins} {nodes : List Value} {cluster : ClusterState}
  {vm : Bool} {object pod node : Value} {assumed : Option String} {sight : Sight} {name : String}
  {passes : Value → Bool} {score : Value → Int}

theorem mem_of_foldl_best {found : Option Value}
    (chosen : nodes.foldl (fun found node =>
      match found with
      | some chosen => if score chosen < score node then some node else some chosen
      | none => some node) found = some node) : found = some node ∨ node ∈ nodes := by
  induction nodes generalizing found with
  | nil => exact .inl chosen
  | cons head rest ih =>
    rcases ih chosen with first | later
    · cases found with
      | none => exact .inr (by simp [some.inj first])
      | some before =>
        dsimp only at first
        split_ifs at first
        · exact .inr (by simp [some.inj first])
        · exact .inl first
    · exact .inr (.tail _ later)

theorem best_mem (chosen : best score nodes = some node) : node ∈ nodes := by
  rcases mem_of_foldl_best chosen with none | member
  · cases none
  · exact member

theorem isOk_iff {result : Except String Unit} : result.isOk = true ↔ result = .ok () := by
  cases result <;> simp [Except.isOk, Except.toBool]

theorem choose_spec (chosen : choose quantities plugins nodes cluster pod passes = some node) :
    node ∈ nodes ∧ passes node = true ∧
      resourceFitFilter quantities pod node (cluster.used node) = .ok () := by
  have ⟨member, passed⟩ := List.mem_filter.mp (best_mem chosen)
  rw [Bool.and_eq_true, isOk_iff] at passed
  have ⟨_, _, fits⟩ := bind_eq_ok.mp passed.2
  exact ⟨member, passed.1, fits⟩

/-- The node `name` has room for the workload, and is the one that the workload is held to, if it is
held to one. -/
structure Fitting (quantities : Quantities) (vm : Bool) (object : Value) (cluster : ClusterState)
    (assumed : Option String) (nodes : List Value) (name : String) : Prop where
  room : ∃ node ∈ nodes, nodeName node = name ∧ Room quantities node["status"]["allocatable"]
    (cluster.usage name) (usageOf quantities vm (chargedAs quantities vm object))
  held : ∀ reserved, assumed = some reserved → name = reserved

/-- What a pass can come to. -/
inductive Decided (quantities : Quantities) (vm : Bool) (object : Value) (cluster : ClusterState)
    (assumed : Option String) (sight : Sight) : Decision → Prop
  | nothing : Decided quantities vm object cluster assumed sight .nothing
  | bind {node : String} {body : Value} (isPod : vm = false)
      (fits : Fitting quantities vm object cluster assumed sight.nodes node)
      (made : boundPod object node sight = some body) :
      Decided quantities vm object cluster assumed sight (.bind node body)
  | waiting {node : String} {patches : List (String × Value)} (isPod : vm = false)
      (fits : Fitting quantities vm object cluster assumed sight.nodes node) :
      Decided quantities vm object cluster assumed sight (.waitingForVolumes node patches)
  | place {node : String} (isMachine : vm = true) (named : node ≠ "")
    (unplaced : nodeOf object = none)
      (fits : Fitting quantities vm object cluster assumed sight.nodes node) :
      Decided quantities vm object cluster assumed sight
        (.place node (statusPatch object (placedStatus object node)))
  | target {node : String} (isMachine : vm = true) (placed : (nodeOf object).isSome = true)
      (fits : Fitting quantities vm object cluster assumed sight.nodes node) :
      Decided quantities vm object cluster assumed sight (.target node (statusPatch object
        [("migrationState", .object [("targetNode", .string node)])]))

theorem fitting_of_choose
    (chosen : choose quantities plugins (candidates assumed nodes) cluster pod passes = some node)
    (same : SameRequests (chargedAs quantities vm object) pod)
    (count : vm = true ∨ podCountFilter node (cluster.used node) = .ok ()) :
    Fitting quantities vm object cluster assumed nodes (nodeName node) := by
  obtain ⟨member, -, fits⟩ := choose_spec chosen
  have room := same.usageOf_eq vm ▸ room_of_filters fits count
  cases assumed with
  | none => exact ⟨⟨node, member, rfl, room⟩, nofun⟩
  | some name =>
    have ⟨member, isName⟩ := List.mem_filter.mp member
    refine ⟨⟨node, member, rfl, room⟩, fun reserved isReserved => ?_⟩
    cases isReserved
    rw [nodeName, of_decide_eq_true isName]
    rfl

theorem SameRequests.refl (pod : Value) : SameRequests pod pod := ⟨fun _ _ => rfl, rfl⟩

theorem within_nodeSelector {shim : Value} (shape : shim.isObject = true) (selector : Value) :
    Value.Within "spec" ["nodeSelector"] shim
      (shim.insert "spec" (shim["spec"].insert "nodeSelector" selector)) := by
  refine ⟨fun field other => index_insert_of_ne other, fun field other => ?_⟩
  rw [index_insert_self shape, index_insert_of_ne (List.mem_singleton.not.mp other)]

theorem schedulePod_decided {decision : Decision}
    (made : schedulePod quantities plugins (candidates assumed sight.nodes) cluster sight object =
      some decision) : Decided quantities false object cluster assumed sight decision := by
  unfold schedulePod at made
  split_ifs at made
  · cases made
    exact .nothing
  · split at made
    · rename_i name found
      have ⟨node, chosen, isName⟩ := bind_eq_some_iff.mp found
      obtain ⟨-, passed, -⟩ := choose_spec chosen
      have counted : podCountFilter node (cluster.used node) = .ok () := by
        rw [podNodes, Bool.and_eq_true, isOk_iff] at passed
        exact passed.1
      have fits : Fitting quantities false object cluster assumed sight.nodes (nodeName node) :=
        fitting_of_choose chosen (.refl _) (.inr counted)
      have isNode : nodeName node = name := by simp [nodeName, isName]
      rw [isNode] at fits
      unfold placePod at made
      split_ifs at made
      · obtain ⟨body, bound, rfl⟩ := map_eq_some_iff.mp made
        exact .bind rfl fits bound
      · dsimp only at made
        split at made
        · cases made
          exact .waiting rfl fits
        · cases made
          exact .nothing
    · cases made
      exact .nothing

theorem scheduleVirtualMachine_decided (unplaced : nodeOf object = none) :
    Decided quantities true object cluster assumed sight
      (scheduleVirtualMachine quantities plugins (candidates assumed sight.nodes) cluster
          object) := by
  unfold scheduleVirtualMachine
  split_ifs
  · exact .nothing
  · dsimp only
    split
    · rename_i name found
      have ⟨found, named⟩ := filter_eq_some_iff.mp found
      obtain ⟨node, chosen, rfl⟩ := map_eq_some_iff.mp found
      exact .place rfl (by simpa using named) unplaced
        (fitting_of_choose chosen (.refl _) (.inl rfl))
    · exact .nothing

theorem scheduleMigrationTarget_decided (placed : (nodeOf object).isSome = true) :
    Decided quantities true object cluster assumed sight (scheduleMigrationTarget quantities plugins
      (candidates assumed sight.nodes) cluster object sight.added) := by
  unfold scheduleMigrationTarget
  dsimp only
  split
  · rename_i name found
    obtain ⟨found, -⟩ := filter_eq_some_iff.mp found
    obtain ⟨node, chosen, rfl⟩ := map_eq_some_iff.mp found
    refine .target rfl placed (fitting_of_choose chosen ?_ (.inl rfl))
    unfold addNodeSelector
    split
    · exact .refl _
    · exact .of_spec (within_nodeSelector rfl _) (by decide)
  · exact .nothing

theorem decision_decided {decided : Decision}
    (made : decision quantities plugins vm object cluster assumed sight = some decided) :
    Decided quantities vm object cluster assumed sight decided := by
  unfold decision at made
  cases vm with
  | false => exact schedulePod_decided made
  | true =>
    rw [if_neg (by decide)] at made
    split_ifs at made with placed
    · cases made
      exact scheduleMigrationTarget_decided placed
    · cases made
      exact scheduleVirtualMachine_decided (by simpa using placed)

end

variable {pod vmi bound after object : Value} {node other : String} {sight : Sight}
  {inner : List String}

theorem annotated_within {name text : String} (written : annotated pod name text = some after) :
    Value.Within "metadata" ["annotations"] pod after := by
  have ⟨made, prepared, written⟩ := bind_eq_some_iff.mp written
  obtain ⟨annotations, -, written⟩ := bind_eq_some_iff.mp written
  have last := Value.Within.of_assignIn written
  unfold withAnnotations at prepared
  split_ifs at prepared
  · cases prepared
    exact last
  · have both := (Value.Within.of_assignIn prepared).trans last
    exact ⟨both.outside, fun field other => both.inside field (by simpa using other)⟩

theorem boundPod_lands (made : boundPod pod node sight = some bound) :
    SameRequests pod bound ∧ ∀ other, placedNode false bound = some other → other = node := by
  have ⟨named, isNamed, made⟩ := bind_eq_some_iff.mp made
  have ⟨dated, isDated, made⟩ := bind_eq_some_iff.mp made
  have ⟨started, isStarted, made⟩ := bind_eq_some_iff.mp made
  have toMetadata := annotated_within isDated
  have toStatus := ((Value.Within.of_assignIn isStarted).trans (.of_removeIn started "status"
    "nominatedNodeName")).trans (.of_assignIn made)
  refine ⟨((SameRequests.of_spec (.of_assignIn isNamed) (by decide)).trans
    (.of_metadata toMetadata)).trans (.of_status toStatus (by decide)), fun other placed => ?_⟩
  have chosen : bound["spec"]["nodeName"] = .string node := by
    rw [toStatus.outside "spec" (by decide), toMetadata.outside "spec" (by decide)]
    exact assignIn_self isNamed
  have named := placedNode_pod placed
  rw [podNode, chosen] at named
  exact (some.inj (filter_eq_some_iff.mp named).1).symm

theorem statusPatch_spec (vmi : Value) (status : Fields) :
    (merge vmi (statusPatch vmi status))["spec"] = vmi["spec"] :=
  merge_index_of_absent vmi rfl

theorem statusPatch_status (vmi : Value) (status : Fields) :
    (merge vmi (statusPatch vmi status))["status"] = merge vmi["status"] (.object status) :=
  merge_index vmi (by simp) rfl rfl

theorem statusPatch_status_of_absent (vmi : Value) {status : Fields} {field : String}
    (absent : status.lookup field = none) :
    (merge vmi (statusPatch vmi status))["status"][field] = vmi["status"][field] := by
  rw [statusPatch_status]
  exact merge_index_of_absent _ absent

theorem nodeOf_eq {vmi other : Value}
    (status : other["status"]["nodeName"] = vmi["status"]["nodeName"])
    (spec : other["spec"] = vmi["spec"]) : nodeOf other = nodeOf vmi := by
  rw [nodeOf, nodeOf, status, spec]

theorem isTerminal_eq {other : Value}
    (phase : other["status"]["phase"] = object["status"]["phase"]) :
    isTerminal other = isTerminal object := by
  rw [isTerminal, isTerminal, phase]

theorem targetNode_of_metadata (within : Value.Within "metadata" inner object after) (vm : Bool) :
    targetNode vm after = targetNode vm object := by
  have spec : after["spec"] = object["spec"] := within.outside "spec" (by decide)
  have status : after["status"] = object["status"] := within.outside "status" (by decide)
  unfold targetNode
  rw [isTerminal_eq (congrArg (·["phase"]) status), nodeOf_eq (congrArg (·["nodeName"]) status)
    spec, status]

theorem placedNode_of_metadata (within : Value.Within "metadata" inner object after) (vm : Bool) :
    placedNode vm after = placedNode vm object := by
  have spec : after["spec"] = object["spec"] := within.outside "spec" (by decide)
  have status : after["status"] = object["status"] := within.outside "status" (by decide)
  unfold placedNode podNode
  rw [isTerminal_eq (congrArg (·["phase"]) status), nodeOf_eq (congrArg (·["nodeName"]) status)
    spec, spec]

theorem placed_isTerminal (vmi : Value) (node : String)
    (alive : isTerminal (merge vmi (statusPatch vmi (placedStatus vmi node))) = false) :
    isTerminal vmi = false := by
  unfold placedStatus at alive
  split_ifs at alive with unset
  · unfold isTerminal
    cases phase : vmi["status"]["phase"].asStr? with
    | none => rfl
    | some text =>
      rw [phase] at unset
      obtain rfl : text = "" := by simpa [Option.filter] using unset
      rfl
  · rw [← alive]
    exact (isTerminal_eq (statusPatch_status_of_absent vmi rfl)).symm

theorem place_lands (named : node ≠ "") (unplaced : nodeOf vmi = none) :
    (∀ other, placedNode true (merge vmi (statusPatch vmi (placedStatus vmi node))) = some other →
      other = node) ∧
    ∀ other, targetNode true (merge vmi (statusPatch vmi (placedStatus vmi node))) = some other →
      targetNode true vmi = some other := by
  have migration : (placedStatus vmi node).lookup "migrationState" = none := by
    unfold placedStatus
    split_ifs <;> rfl
  have chosen : (merge vmi (statusPatch vmi (placedStatus vmi node)))["status"]["nodeName"] =
      .string node := by
    rw [statusPatch_status]
    unfold placedStatus
    split_ifs
    · rw [merge_index _ (by simp) rfl rfl, merge_string]
    · rw [merge_index _ (by simp) rfl rfl, merge_string]
  constructor
  · intro other placed
    have isNode : nodeOf (merge vmi (statusPatch vmi (placedStatus vmi node))) = some node := by
      rw [nodeOf, chosen]
      simp [asStr?, Option.filter, named]
    rw [placedNode_machine placed] at isNode
    exact some.inj isNode
  · intro other moving
    rw [targetNode_iff, statusPatch_status_of_absent vmi migration] at moving
    rw [targetNode_iff, unplaced]
    obtain ⟨alive, target, isName, active, running, -⟩ := moving
    exact ⟨placed_isTerminal vmi node alive, target, isName, active, running, by simp⟩

theorem target_lands (vmi : Value) (node : String) :
    placedNode true (merge vmi (statusPatch vmi
        [("migrationState", .object [("targetNode", .string node)])])) = placedNode true vmi ∧
    ∀ other, targetNode true (merge vmi (statusPatch vmi
        [("migrationState", .object [("targetNode", .string node)])])) = some other →
            other = node := by
  constructor
  · unfold placedNode
    rw [isTerminal_eq (statusPatch_status_of_absent vmi rfl),
      nodeOf_eq (statusPatch_status_of_absent vmi rfl) (statusPatch_spec vmi _)]
    rfl
  · intro other moving
    have target := (targetNode_iff.mp moving).2.1
    rw [statusPatch_status, merge_index _ (by simp) rfl rfl, merge_index _ (by simp) rfl rfl,
      merge_string] at target
    exact (some.inj target).symm

/- The scheduler with the server that it writes to and the feed that it reads from. Writes are lost,
late and answered in any order; the feed lags. -/

/-- A version of an object, as it is served. -/
structure Version where
  revision : Nat
  object : Value
  stamped : object["metadata"]["resourceVersion"] = .string (toString revision)

def Version.stamp (revision : Nat) (object : Value) : Option Version :=
  match written : object.assignIn "metadata" "resourceVersion" (.string (toString revision)) with
  | some object => some ⟨revision, object, Value.assignIn_self written⟩
  | none => none

/-- One object: what the feed last delivered of it, and what happened to it since. A deletion is
`none`. -/
structure Cell where
  seen : Option Version
  queue : List (Option Version)

namespace Cell

/-- The object on the server. -/
def current (cell : Cell) : Option Version := cell.queue.getLast?.getD cell.seen

def versions (cell : Cell) : List Version := (cell.seen :: cell.queue).reduceOption

def push (cell : Cell) (version : Option Version) : Cell :=
  { cell with queue := cell.queue ++ [version] }

end Cell

/-- What a write of the scheduler is for. -/
inductive Purpose where
  /-- A Pod's `spec.nodeName`. -/
  | bind
  /-- A machine's `status.nodeName`. -/
  | place
  /-- A machine's `status.migrationState.targetNode`. -/
  | target
  /-- `selected-node` on the claims of a Pod. -/
  | claims
deriving DecidableEq

/-- The scheduling loop waits for a machine's write; the others run beside it. -/
def Purpose.inline : Purpose → Bool
  | .place | .target => true
  | .bind | .claims => false

inductive Fate where
  | onTheWay
  | applied
  | refused
deriving DecidableEq

structure Write where
  key : ScheduleKey
  purpose : Purpose
  node : String
  /-- The version that the decision was made on, and that the write holds for. -/
  base : Version
  body : Value
  fate : Fate
  awaited : Bool

/-- What the server stores for a write to an object: a bind replaces it, a machine's status is
patched. -/
def Write.result (write : Write) (current : Value) : Value :=
  match write.purpose with
  | .bind => write.body
  | _ => Patch.merge current write.body

structure State where
  cells : ScheduleKey → Cell
  revision : Nat
  scheduler : SchedulingState
  writes : List Write

inductive Action where
  /-- Another client creates or updates an object, or this scheduler reports on one. -/
  | write (key : ScheduleKey) (object : Value)
  | delete (key : ScheduleKey)
  /-- The feed delivers a later state of an object, and skips those before it. -/
  | deliver (key : ScheduleKey) (skipped : Nat)
  | pass (key : ScheduleKey) (sight : Sight)
  /-- A write reaches the server. -/
  | arrive (index : Nat)
  /-- The scheduler learns how a write ended, or that it got no answer. -/
  | answer (index : Nat) (ok : Bool)

def MAX_BINDS_IN_FLIGHT : Nat := 16

namespace State

def empty : State := ⟨fun _ => ⟨none, []⟩, 0, .empty, []⟩

def push (state : State) (key : ScheduleKey) (version : Option Version) : State :=
  { state with
    cells := Function.update state.cells key ((state.cells key).push version)
    revision := state.revision + 1 }

def store (state : State) (key : ScheduleKey) (object : Value) : Option State := do
  let version ← Version.stamp (state.revision + 1) object
  if Key.of? version.object = some key.key then some (state.push key (some version)) else none

def delete (state : State) (key : ScheduleKey) : Option State :=
  if (state.cells key).current.isSome then some (state.push key none) else none

/-- The loop waits for a write. -/
def blocked (state : State) : Bool :=
  state.writes.any fun write => write.awaited && write.purpose.inline

/-- The work of a write is held until it is answered. -/
def idle (state : State) (key : ScheduleKey) : Bool :=
  !state.blocked && !(state.writes.any fun write => write.awaited && write.key == key) &&
    state.writes.countP (fun write => write.awaited) < MAX_BINDS_IN_FLIGHT

def send (state : State) (write : Write) : State := { state with writes := state.writes ++ [write] }

def setWrite (state : State) (index : Nat) (write : Write) : State :=
  { state with writes := state.writes.set index write }

variable (quantities : Quantities) (plugins : Plugins)

def deliver (state : State) (key : ScheduleKey) (skipped : Nat) : Option State :=
  let cell := state.cells key
  cell.queue[skipped]?.map fun version =>
    { state with
      cells := Function.update state.cells key ⟨version, cell.queue.drop (skipped + 1)⟩
      scheduler := state.scheduler.observe quantities key.vm
        ⟨cell.seen.map Version.object, version.map Version.object⟩ }

/-- A pass looks again at the feed's copy of its object. -/
def look (state : State) (key : ScheduleKey) (version : Version) : State :=
  { state with scheduler := state.scheduler.observe quantities key.vm ⟨none, some version.object⟩ }

def reserve (state : State) (key : ScheduleKey) (version : Version) (node : String)
    (waiting : Bool) : State :=
  { state with scheduler := state.scheduler.reserve key version.object node waiting }

/-- What a pass decided is reserved, and then written. -/
def carryOut (state : State) (key : ScheduleKey) (version : Version) (failed : Bool) :
    Decision → Option State
  | .nothing => some state
  | .bind node body =>
    let state := state.reserve key version node false
    some (if failed then state else state.send ⟨key, .bind, node, version, body, .onTheWay, true⟩)
  | .waitingForVolumes node patches =>
    let state := state.reserve key version node true
    some (if patches.isEmpty || failed then state
      else state.send ⟨key, .claims, node, version, .null, .onTheWay, true⟩)
  | .place node patch =>
    some ((state.reserve key version node false).send
      ⟨key, .place, node, version, patch, .onTheWay, true⟩)
  | .target node patch =>
    (state.scheduler.reserveTarget quantities key version.object node).map fun scheduler =>
      { state with scheduler := scheduler }.send
        ⟨key, .target, node, version, patch, .onTheWay, true⟩

/-- A pass for a workload that waits for a node. -/
def schedule (state : State) (key : ScheduleKey) (version : Version) (sight : Sight) :
    Option State := do
  let cluster ← state.scheduler.snapshot quantities key
  let decided ← decision quantities plugins key.vm version.object cluster
    (state.scheduler.assumedNode key) sight
  state.carryOut quantities key version sight.failed decided

def pass (state : State) (key : ScheduleKey) (sight : Sight) : Option State :=
  if state.idle key then
    (state.cells key).seen.bind fun version =>
      let state := state.look quantities key version
      if !pendingWorkload key.vm version.object || (!key.vm && gated version.object) then some state
      else state.schedule quantities plugins key version sight
  else none

/-- A write holds only while the object is at the version it was made from. -/
def arrive (state : State) (index : Nat) : Option State :=
  state.writes[index]?.bind fun write =>
    if write.fate = .onTheWay ∧ write.purpose ≠ .claims then
      match (state.cells write.key).current.filter fun current =>
          current.object["metadata"]["resourceVersion"] =
            write.base.object["metadata"]["resourceVersion"] with
      | some current => (state.store write.key (write.result current.object)).map fun stored =>
          stored.setWrite index { write with fate := .applied }
      | none => some (state.setWrite index { write with fate := .refused })
    else none

/-- A write that succeeded is shown to the feed before the caller has its answer. -/
def acknowledge (state : State) (write : Write) : Option State :=
  if (state.cells write.key).seen.any (·.revision = write.base.revision) then
    state.deliver quantities write.key 0
  else some state

/-- A write that got no answer, or an error. -/
def fail (state : State) (write : Write) : State :=
  match write.purpose with
  | .claims => { state with scheduler.assumptions := state.scheduler.assumptions.erase write.key }
  | .target =>
    { state with scheduler.targetAssumptions := state.scheduler.targetAssumptions.erase write.key }
  | .bind | .place => state

def answer (state : State) (index : Nat) (ok : Bool) : Option State :=
  state.writes[index]?.bind fun write =>
    if write.awaited ∧ (write.purpose.inline ∨ ¬state.blocked) then
      let answered := state.setWrite index { write with awaited := false }
      if !ok then some (answered.fail write)
      else if write.purpose = .claims then some answered
      else if write.fate = .applied then answered.acknowledge quantities write
      else none
    else none

def step (state : State) : Action → Option State
  | .write key object => state.store key object
  | .delete key => state.delete key
  | .deliver key skipped => state.deliver quantities key skipped
  | .pass key sight => state.pass quantities plugins key sight
  | .arrive index => state.arrive index
  | .answer index ok => state.answer quantities index ok

/-- The state once the feeds are synchronized, with the objects that there are. -/
def start (objects : List (ScheduleKey × Value)) : Option State :=
  objects.foldlM (fun state object => do
    let stored ← state.store object.1 object.2
    stored.deliver quantities object.1 0) empty

end State

end Rustkube.Scheduler
