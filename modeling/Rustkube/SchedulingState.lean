import Mathlib.Tactic.Abel
import Rustkube.NodeUsage

namespace Rustkube.Scheduler

open Ledger AList List Option Json

/-- An object's identity in the feed. A new object under an old name is another one. -/
structure Key where
  ns : String
  name : String
  uid : String
deriving DecidableEq

def Key.of? (object : Value) : Option Key := do
  let name ← object["metadata"]["name"].asStr?.filter (· ≠ "")
  let uid ← object["metadata"]["uid"].asStr?.filter (· ≠ "")
  some ⟨object["metadata"]["namespace"].asStr?.getD "", name, uid⟩

/-- A Pod or a VirtualMachineInstance. -/
structure ScheduleKey where
  vm : Bool
  key : Key
deriving DecidableEq

variable {node : String}

section

def activeMigration (vmi : Value) : Option Value :=
  let state := vmi["status"]["migrationState"]
  let named := (state["migrationUid"].asStr?.filter (· ≠ "")).isSome
  let done := state["completed"].asBool? = some true ∨ state["failed"].asBool? = some true
  if named ∧ ¬done then some state else none

/-- A migration whose target is still to be chosen. -/
def wantsMigrationTarget (vmi : Value) : Bool :=
  (activeMigration vmi).any fun state =>
    (state["targetNode"].asStr?.filter (· ≠ "")).isNone && state["abortRequested"].asBool? != some
      true

/-- A Pod held back by `spec.schedulingGates`. -/
def gated (pod : Value) : Bool := pod["spec"]["schedulingGates"].asArray?.any (!·.isEmpty)

def podNode (pod : Value) : Option String := pod["spec"]["nodeName"].asStr?.filter (· ≠ "")

def pendingWorkload (vm : Bool) (object : Value) : Bool :=
  object["metadata"]["deletionTimestamp"].isNull && !isTerminal object &&
    if vm then (nodeOf object).isNone || wantsMigrationTarget object else (podNode object).isNone

/-- The node that a workload is on. -/
def placedNode (vm : Bool) (object : Value) : Option String :=
  if isTerminal object then none else if vm then nodeOf object else podNode object

/-- The node that a machine is moving to, until the migration fails, or succeeds and the machine is
moved there. -/
def targetNode (vm : Bool) (object : Value) : Option String :=
  if !vm || isTerminal object then none
  else
    let state := object["status"]["migrationState"]
    (state["targetNode"].asStr?.filter (· ≠ "")).filter fun target =>
      (state["migrationUid"].asStr?.filter (· ≠ "")).isSome && state["failed"].asBool? != some
        true && !(state["completed"].asBool? == some true && nodeOf object == some target)

variable (quantities : Quantities) {pod : Value}

/-- The pod that a workload is charged as. -/
def chargedAs (vm : Bool) (object : Value) : Value :=
  if vm then schedulingShim quantities object else object

def placedWorkload (vm : Bool) (object : Value) : Option (String × Value) :=
  (placedNode vm object).map fun node => (node, chargedAs quantities vm object)

/-- A migrating machine's target is charged like a second placement. -/
def migrationTarget (vm : Bool) (object : Value) : Option (String × Value) :=
  (targetNode vm object).map fun node => (node, chargedAs quantities vm object)

theorem placedNode_pod (placed : placedNode false pod = some node) : podNode pod = some node := by
  unfold placedNode at placed
  split_ifs at placed with terminal vm
  · cases vm
  · exact placed

variable {vmi : Value}

theorem placedNode_machine (placed : placedNode true vmi = some node) : nodeOf vmi = some node := by
  unfold placedNode at placed
  split_ifs at placed with terminal vm
  · exact placed
  · exact absurd rfl vm

theorem pendingWorkload_pod (pending : pendingWorkload false pod = true) : podNode pod = none := by
  simp only [pendingWorkload, Bool.and_eq_true, Bool.false_eq_true, if_false] at pending
  exact isNone_iff_eq_none.mp pending.2

theorem targetNode_iff :
    targetNode true vmi = some node ↔ isTerminal vmi = false ∧
      vmi["status"]["migrationState"]["targetNode"].asStr? = some node ∧ node ≠ "" ∧
      (vmi["status"]["migrationState"]["migrationUid"].asStr?.filter (· ≠ "")).isSome = true ∧
      vmi["status"]["migrationState"]["failed"].asBool? ≠ some true ∧
      ¬(vmi["status"]["migrationState"]["completed"].asBool? = some true ∧
          nodeOf vmi = some node) := by
  unfold targetNode
  split_ifs with ended
  · simp only [Bool.not_true, Bool.false_or] at ended
    simp [ended]
  · simp only [Bool.not_true, Bool.false_or, Bool.not_eq_true] at ended
    simp [ended, filter_eq_some_iff, and_assoc, imp_iff_not_or]

theorem targetNode_of_wants (wants : wantsMigrationTarget vmi = true) (vm : Bool) :
    targetNode vm vmi = none := by
  cases vm with
  | false => rfl
  | true =>
    cases moving : targetNode true vmi with
    | none => rfl
    | some node =>
      obtain ⟨-, target, isName, -⟩ := targetNode_iff.mp moving
      unfold wantsMigrationTarget activeMigration at wants
      have ⟨state, active, wants⟩ := (any_eq_true _ _).mp wants
      dsimp only at active
      split_ifs at active
      cases active
      rw [target] at wants
      simp [Option.filter, isName] at wants

def podPriority (pod : Value) : Int := pod["spec"]["priority"].asI64?.getD 0

end

structure Assumption where
  node : String
  object : Value
  waitingForVolume : Bool

structure Delta where
  old : Option Value
  new : Option Value

/-- What the scheduler knows between two passes. A node that has no entry in `usage` has promised
nothing. -/
structure SchedulingState where
  pending : AList fun _ : ScheduleKey => Value
  placed : AList fun _ : ScheduleKey => String × Value
  usage : String → NodeUsage
  assumptions : AList fun _ : ScheduleKey => Assumption
  targets : AList fun _ : ScheduleKey => String × Value
  /-- Targets chosen whose write has not been seen back yet. -/
  targetAssumptions : AList fun _ : ScheduleKey => String × Value

/-- Something held on a node under a workload's name. -/
structure Charge where
  key : ScheduleKey
  node : String
  pod : Value

structure ClusterState where
  usage : String → NodeUsage
  placed : List (String × Value)

section

variable (quantities : Quantities)

/-- What a charge takes of a node. -/
def Charge.on (charge : Charge) (node : String) : NodeUsage :=
  if charge.node = node then usageOf quantities charge.key.vm charge.pod else 0

def charge (usage : String → NodeUsage) (charged : Charge) : String → NodeUsage :=
  fun node => usage node + charged.on quantities node

def uncharge (usage : String → NodeUsage) (charged : Charge) : String → NodeUsage :=
  fun node => usage node - charged.on quantities node

/-- `if let Some((node, pod)) = map.remove(key) { uncharge(usage, key.0, node, pod) }`, as to
`usage`. -/
def unchargeEntry (usage : String → NodeUsage) (map : AList fun _ : ScheduleKey => String × Value)
    (key : ScheduleKey) : String → NodeUsage :=
  match map.lookup key with
  | some (node, pod) => uncharge quantities usage ⟨key, node, pod⟩
  | none => usage

def chargeEntry (usage : String → NodeUsage) (key : ScheduleKey) (entry : Option (String × Value)) :
    String → NodeUsage :=
  match entry with
  | some (node, pod) => charge quantities usage ⟨key, node, pod⟩
  | none => usage

/-- `map.remove(key)`, and an entry if there is one. -/
def setEntry {V : Type} (map : AList fun _ : ScheduleKey => V) (key : ScheduleKey) :
    Option V → AList fun _ : ScheduleKey => V
  | some entry => map.insert key entry
  | none => map.erase key

end

namespace SchedulingState

variable (quantities : Quantities)

def empty : SchedulingState := ⟨∅, ∅, fun _ => 0, ∅, ∅, ∅⟩

def remove (state : SchedulingState) (key : ScheduleKey) : SchedulingState where
  pending := state.pending.erase key
  placed := state.placed.erase key
  usage := unchargeEntry quantities (unchargeEntry quantities state.usage state.placed key)
    state.targets key
  assumptions := state.assumptions.erase key
  targets := state.targets.erase key
  targetAssumptions := state.targetAssumptions.erase key

/-- The later version fences a write that was made with the assumed one. -/
def fenced (assumption : Assumption) (object : Value) : Bool :=
  !assumption.waitingForVolume &&
    assumption.object["metadata"]["resourceVersion"] != object["metadata"]["resourceVersion"]

def seenAssumptions (state : SchedulingState) (key : ScheduleKey) (object : Value) :
    AList fun _ : ScheduleKey => Assumption :=
  if pendingWorkload key.vm object then
    if (state.assumptions.lookup key).any (fenced · object) then state.assumptions.erase key
    else state.assumptions
  else state.assumptions.erase key

/-- `observe` of the object that a delta brings. -/
def see (state : SchedulingState) (key : ScheduleKey) (object : Value) : SchedulingState :=
  let target := migrationTarget quantities key.vm object
  let placed := placedWorkload quantities key.vm object
  let usage := unchargeEntry quantities (unchargeEntry quantities state.usage state.placed key)
    state.targets key
  { pending := setEntry state.pending key
      (if pendingWorkload key.vm object then some object else none)
    placed := setEntry state.placed key placed
    usage := chargeEntry quantities (chargeEntry quantities usage key target) key placed
    assumptions := state.seenAssumptions key object
    targets := setEntry state.targets key target
    targetAssumptions := if target.isSome || !wantsMigrationTarget object then
      state.targetAssumptions.erase key else state.targetAssumptions }

/-- `observe` of an object that a delta takes away. -/
def forget (state : SchedulingState) (vm : Bool) (delta : Delta) : SchedulingState :=
  match delta.old.bind Key.of? with
  | some key => if delta.new.bind Key.of? = some key then state
    else state.remove quantities ⟨vm, key⟩
  | none => state

def observe (state : SchedulingState) (vm : Bool) (delta : Delta) : SchedulingState :=
  let state := state.forget quantities vm delta
  match delta.new.bind fun object => (Key.of? object).map fun key => (key, object) with
  | some (key, object) => state.see quantities ⟨vm, key⟩ object
  | none => state

def reserve (state : SchedulingState) (key : ScheduleKey) (object : Value) (node : String)
    (waiting : Bool) : SchedulingState :=
  { state with assumptions := state.assumptions.insert key ⟨node, object, waiting⟩ }

/-- `pod["spec"]["nodeName"] = json!(node)` -/
def withNode (pod : Value) (node : String) : Option Value :=
  pod.assignIn "spec" "nodeName" (.string node)

def reserveTarget (state : SchedulingState) (key : ScheduleKey) (object : Value) (node : String) :
    Option SchedulingState := do
  let shim ← withNode (schedulingShim quantities object) node
  some { state with targetAssumptions := state.targetAssumptions.insert key (node, shim) }

/-- What is in `usage`. -/
def held (state : SchedulingState) : List Charge :=
  (state.placed.entries ++ state.targets.entries).map fun entry =>
    ⟨entry.1, entry.2.1, entry.2.2⟩

/-- The targets chosen for other machines that no watch event has confirmed. -/
def assumedTargets (state : SchedulingState) (current : ScheduleKey) : List Charge :=
  (state.targetAssumptions.entries.filter fun entry =>
    entry.1 ≠ current && (state.targets.lookup entry.1).isNone).map fun entry =>
      ⟨entry.1, entry.2.1, entry.2.2⟩

def assumedCharge (entry : Sigma fun _ : ScheduleKey => Assumption) : Option Charge :=
  (withNode (chargedAs quantities entry.1.vm entry.2.object) entry.2.node).map fun pod =>
    ⟨entry.1, entry.2.node, pod⟩

def assumedPlacements (state : SchedulingState) (current : ScheduleKey) : Option (List Charge) :=
  (state.assumptions.entries.filter fun entry =>
    entry.1 ≠ current && (state.placed.lookup entry.1).isNone).mapM (assumedCharge quantities)

/-- The node a pending Pod preempted on, if it holds room there against the current workload. -/
def nominatedNode (state : SchedulingState) (current key : ScheduleKey) (pod : Value) :
    Option String :=
  if key = current ∨ key.vm ∨ (state.assumptions.lookup key).isSome then none
  else (pod["status"]["nominatedNodeName"].asStr?.filter (· ≠ "")).filter fun _ =>
    !((state.pending.lookup current).map podPriority).any (podPriority pod < ·)

def nominated (state : SchedulingState) (current : ScheduleKey) : Option (List Charge) :=
  (state.pending.entries.filterMap fun entry =>
    (state.nominatedNode current entry.1 entry.2).map fun node =>
      (⟨entry.1, node, entry.2⟩ : Charge)).mapM
      fun charge => (withNode charge.pod charge.node).map fun pod => { charge with pod := pod }

/-- Everything that a pass for `current` counts, `usage` apart. No result is a panic. -/
def uncommitted (state : SchedulingState) (current : ScheduleKey) : Option (List Charge) := do
  let placements ← state.assumedPlacements quantities current
  let nominated ← state.nominated current
  some (state.assumedTargets current ++ placements ++ nominated)

def charges (state : SchedulingState) (current : ScheduleKey) : Option (List Charge) :=
  (state.uncommitted quantities current).map (state.held ++ ·)

def snapshot (state : SchedulingState) (current : ScheduleKey) : Option ClusterState :=
  (state.uncommitted quantities current).map fun uncommitted =>
    { usage := uncommitted.foldl (charge quantities) state.usage
      placed := (state.held ++ uncommitted).map fun charge => (charge.node, charge.pod) }

/-- The node that the current workload is held to. -/
def assumedNode (state : SchedulingState) (current : ScheduleKey) : Option String :=
  (state.assumptions.lookup current).map Assumption.node

end SchedulingState

section

variable {V : Type} (map : AList fun _ : ScheduleKey => V) {key other : ScheduleKey}

@[simp] theorem lookup_setEntry_self (entry : Option V) :
    (setEntry map key entry).lookup key = entry := by
  cases entry with
  | none => exact lookup_erase ..
  | some value => exact lookup_insert map

theorem lookup_setEntry_ne (entry : Option V) (different : other ≠ key) :
    (setEntry map key entry).lookup other = map.lookup other := by
  cases entry with
  | none => exact lookup_erase_ne different
  | some value => exact lookup_insert_ne different

theorem total_setEntry {M : Type} [AddCommGroup M] (amount : ScheduleKey → V → M)
    (key : ScheduleKey) (entry : Option V) :
    total amount (setEntry map key entry) =
      total amount map - share amount map key + (entry.map (amount key)).getD 0 := by
  cases entry with
  | none => simp [setEntry, total_erase]
  | some value => exact total_insert ..

end

section

variable (quantities : Quantities)

/-- What an entry of `placed` or `targets` takes of a node. -/
def taken (node : String) (key : ScheduleKey) (entry : String × Value) : NodeUsage :=
  Charge.on quantities ⟨key, entry.1, entry.2⟩ node

/-- The promises in `usage` are those of the entries of `placed` and `targets`. -/
def SchedulingState.Accounted (state : SchedulingState) : Prop :=
  ∀ node, state.usage node = (state.held.map fun charge => charge.on quantities node).sum

variable {quantities} {usage : String → NodeUsage} {key : ScheduleKey} {state : SchedulingState}

theorem unchargeEntry_apply (map : AList fun _ : ScheduleKey => String × Value) :
    unchargeEntry quantities usage map key node =
      usage node - share (taken quantities node) map key := by
  unfold unchargeEntry share
  cases map.lookup key with
  | none => simp
  | some entry => rfl

theorem chargeEntry_apply (entry : Option (String × Value)) :
    chargeEntry quantities usage key entry node =
      usage node + (entry.map (taken quantities node key)).getD 0 := by
  cases entry with
  | none => simp [chargeEntry]
  | some entry => rfl

theorem SchedulingState.held_sum (node : String) :
    (state.held.map fun charge => charge.on quantities node).sum =
      total (taken quantities node) state.placed +
        total (taken quantities node) state.targets := by
  simp only [held, map_append, sum_append, List.map_map]
  rfl

section

variable (accounted : state.Accounted quantities)

include accounted

theorem SchedulingState.remove_accounted : (state.remove quantities key).Accounted quantities := by
  intro node
  have before := accounted node
  rw [held_sum] at before ⊢
  simp only [remove, unchargeEntry_apply, total_erase, before]
  abel

theorem SchedulingState.see_accounted (object : Value) :
    (state.see quantities key object).Accounted quantities := by
  intro node
  have before := accounted node
  rw [held_sum] at before ⊢
  simp only [see, chargeEntry_apply, unchargeEntry_apply, total_setEntry, before]
  abel

theorem SchedulingState.forget_accounted (vm : Bool) (delta : Delta) :
    (state.forget quantities vm delta).Accounted quantities := by
  unfold forget
  split
  · split_ifs
    · exact accounted
    · exact remove_accounted accounted
  · exact accounted

theorem SchedulingState.observe_accounted (vm : Bool) (delta : Delta) :
    (state.observe quantities vm delta).Accounted quantities := by
  unfold observe
  split
  · exact see_accounted (forget_accounted accounted vm delta) _
  · exact forget_accounted accounted vm delta

end

theorem foldl_charge_apply (charges : List Charge) :
    charges.foldl (charge quantities) usage node =
      usage node + (charges.map fun charge => charge.on quantities node).sum := by
  induction charges generalizing usage with
  | nil => simp
  | cons head rest ih =>
    rw [foldl_cons, ih, map_cons, sum_cons, ← add_assoc]
    rfl

theorem SchedulingState.snapshot_usage {current : ScheduleKey} {cluster : ClusterState}
    (accounted : state.Accounted quantities)
    (taken : state.snapshot quantities current = some cluster) :
    ∃ charges, state.charges quantities current = some charges ∧
      ∀ node, cluster.usage node = (charges.map fun charge => charge.on quantities node).sum := by
  obtain ⟨uncommitted, found, rfl⟩ := map_eq_some_iff.mp taken
  refine ⟨state.held ++ uncommitted, by rw [charges, found]; rfl, fun node => ?_⟩
  dsimp only
  rw [map_append, sum_append, ← accounted node]
  exact foldl_charge_apply uncommitted

end

namespace SchedulingState

variable {quantities : Quantities} {state : SchedulingState} {key other current : ScheduleKey}
  {object : Value} {assumption : Assumption}

theorem observe_new {old : Option Value} (named : Key.of? object = some key.key)
    (same : ∀ before, old = some before → Key.of? before = some key.key) :
    state.observe quantities key.vm ⟨old, some object⟩ = state.see quantities key object := by
  have kept : state.forget quantities key.vm ⟨old, some object⟩ = state := by
    cases old with
    | none => rfl
    | some before => simp [forget, same before rfl, named]
  unfold observe
  simp only [kept, named, bind_some, map_some]

theorem observe_gone {old : Value} (named : Key.of? old = some key.key) :
    state.observe quantities key.vm ⟨some old, none⟩ = state.remove quantities key := by
  simp [observe, forget, named]

theorem lookup_seenAssumptions_self
    (pending : pendingWorkload key.vm object = true)
    (held : state.assumptions.lookup key = some assumption) (made : assumption.object = object) :
    (state.seenAssumptions key object).lookup key = some assumption := by
  have current : fenced assumption object = false := by simp [fenced, made]
  unfold seenAssumptions
  rw [if_pos pending, held, any_some, current, if_neg Bool.false_ne_true, held]

/-- Two states that know the same about a workload, its pending version apart. -/
structure Agree (before after : SchedulingState) (key : ScheduleKey) : Prop where
  placed : after.placed.lookup key = before.placed.lookup key
  targets : after.targets.lookup key = before.targets.lookup key
  assumptions : after.assumptions.lookup key = before.assumptions.lookup key
  targetAssumptions : after.targetAssumptions.lookup key = before.targetAssumptions.lookup key

theorem see_agree (different : other ≠ key) :
    Agree state (state.see quantities key object) other := by
  refine ⟨lookup_setEntry_ne _ _ different, lookup_setEntry_ne _ _ different, ?_, ?_⟩
  all_goals unfold see
  · unfold seenAssumptions
    split_ifs
    · exact lookup_erase_ne different
    · rfl
    · exact lookup_erase_ne different
  · dsimp only
    split_ifs
    · exact lookup_erase_ne different
    · rfl

theorem remove_agree (different : other ≠ key) : Agree state (state.remove quantities key) other :=
  ⟨lookup_erase_ne different, lookup_erase_ne different, lookup_erase_ne different,
    lookup_erase_ne different⟩

theorem mem_mapM {α β : Type} {f : α → Option β} {items : List α} {results : List β}
    (mapped : items.mapM f = some results) {item : α} (member : item ∈ items) :
    ∃ result ∈ results, f item = some result := by
  induction items generalizing results with
  | nil => cases member
  | cons head rest ih =>
    rw [mapM_cons] at mapped
    have ⟨first, isFirst, mapped⟩ := bind_eq_some_iff.mp mapped
    have ⟨others, areOthers, result⟩ := bind_eq_some_iff.mp mapped
    cases result
    rcases mem_cons.mp member with rfl | later
    · exact ⟨first, .head _, isFirst⟩
    · have ⟨result, found, equal⟩ := ih areOthers later
      exact ⟨result, .tail _ found, equal⟩

theorem withNode_sameRequests {pod after : Value}
    (written : withNode pod node = some after) : SameRequests pod after :=
  .of_spec (.of_assignIn written) (by decide)

/-- The charges counted for another workload have `amount` on `node` under `key`. -/
def Charged (quantities : Quantities) (charges : List Charge) (key : ScheduleKey) (node : String)
    (amount : NodeUsage) : Prop :=
  ∃ charge ∈ charges, charge.key = key ∧ charge.node = node ∧
    usageOf quantities key.vm charge.pod = amount

variable {charges : List Charge} {pod : Value}

variable (counted : state.charges quantities current = some charges)

include counted

theorem charges_eq :
    ∃ placements nominated, state.assumedPlacements quantities current = some placements ∧
      charges = state.held ++ (state.assumedTargets current ++ placements ++ nominated) := by
  unfold SchedulingState.charges uncommitted at counted
  cases placements : state.assumedPlacements quantities current with
  | none => simp [placements] at counted
  | some found =>
    cases nominees : state.nominated current with
    | none => simp [nominees] at counted
    | some waiting =>
      refine ⟨found, waiting, rfl, ?_⟩
      simpa [placements, nominees] using counted.symm

theorem charged_of_held
    (held : state.placed.lookup key = some (node, pod) ∨ state.targets.lookup key = some
      (node, pod)) :
    Charged quantities charges key node (usageOf quantities key.vm pod) := by
  obtain ⟨placements, nominated, -, rfl⟩ := charges_eq counted
  refine ⟨⟨key, node, pod⟩, mem_append_left _ ?_, rfl, rfl, rfl⟩
  refine mem_map.mpr ⟨⟨key, node, pod⟩, ?_, rfl⟩
  rcases held with placed | target
  · exact mem_append_left _ (mem_lookup_iff.mp placed)
  · exact mem_append_right _ (mem_lookup_iff.mp target)

theorem charged_of_targetAssumption (other : key ≠ current)
    (unseen : state.targets.lookup key = none)
    (assumed : state.targetAssumptions.lookup key = some (node, pod)) :
    Charged quantities charges key node (usageOf quantities key.vm pod) := by
  obtain ⟨placements, nominated, -, rfl⟩ := charges_eq counted
  refine ⟨⟨key, node, pod⟩, ?_, rfl, rfl, rfl⟩
  have member : ⟨key, node, pod⟩ ∈ state.assumedTargets current := by
    refine mem_map.mpr ⟨⟨key, node, pod⟩, mem_filter.mpr ⟨?_, ?_⟩, rfl⟩
    · exact mem_lookup_iff.mp assumed
    · simp [other, unseen]
  exact mem_append_right _ (mem_append_left _ (mem_append_left _ member))

theorem charged_of_assumption (other : key ≠ current)
    (unplaced : state.placed.lookup key = none)
    (assumed : state.assumptions.lookup key = some assumption) :
    Charged quantities charges key assumption.node
      (usageOf quantities key.vm (chargedAs quantities key.vm assumption.object)) := by
  obtain ⟨placements, nominated, placed, rfl⟩ := charges_eq counted
  have member : (⟨key, assumption⟩ : Sigma fun _ : ScheduleKey => Assumption) ∈
      state.assumptions.entries.filter fun entry =>
        entry.1 ≠ current && (state.placed.lookup entry.1).isNone :=
    mem_filter.mpr ⟨mem_lookup_iff.mp assumed, by simp [other, unplaced]⟩
  have ⟨charge, found, made⟩ := mem_mapM placed member
  obtain ⟨pod, written, rfl⟩ := map_eq_some_iff.mp made
  refine ⟨⟨key, assumption.node, pod⟩, ?_, rfl, rfl, (withNode_sameRequests written).usageOf_eq _⟩
  exact mem_append_right _ (mem_append_left _ (mem_append_right _ found))

end SchedulingState

end Rustkube.Scheduler
