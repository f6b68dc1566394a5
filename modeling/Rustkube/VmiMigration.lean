import Rustkube.Cron
import Rustkube.ControllerObjects
import Rustkube.Patch
import Rustkube.SchedulingState

/- The live migration of a VirtualMachineInstance: what a pass of the controller plans from the
migration and its VMI. -/
namespace Rustkube.VmiMigration

open Option Json Controllers Scheduler Cron

def FINALIZER : String := "kubevirt.io/migrationJobFinalize"

def NODE_LABEL : String := "kubevirt.io/nodeName"

def SCHEDULING_TIMEOUT_SECS : Int := 300

def PREPARE_TIMEOUT_SECS : Int := 900

def ABORT_WAIT_SECS : Int := 300

inductive Phase where
  | pending
  | scheduling
  | scheduled
  | preparingTarget
  | targetReady
  | running
  | succeeded
  | failed
deriving DecidableEq

def Phase.text : Phase → String
  | .pending => "Pending"
  | .scheduling => "Scheduling"
  | .scheduled => "Scheduled"
  | .preparingTarget => "PreparingTarget"
  | .targetReady => "TargetReady"
  | .running => "Running"
  | .succeeded => "Succeeded"
  | .failed => "Failed"

def phaseStatic (phase : String) : Phase :=
  if phase = "Succeeded" then .succeeded
  else if phase = "Failed" then .failed
  else if phase = "Scheduling" then .scheduling
  else if phase = "Scheduled" then .scheduled
  else if phase = "PreparingTarget" then .preparingTarget
  else if phase = "TargetReady" then .targetReady
  else if phase = "Running" then .running
  else .pending

def isFinal (phase : String) : Bool := phase = "Succeeded" ∨ phase = "Failed"

section

variable (migration vmi : Value)

def phaseOf : String := textOf migration["status"]["phase"]

def vmiName : String := textOf migration["spec"]["vmiName"]

def finalizers : List Value := migration["metadata"]["finalizers"].asArray?.getD []

def hasFinalizer : Bool := (finalizers migration).any (· = .string FINALIZER)

/-- The migration that the VMI records, in flight or finished. -/
def record : Value := vmi["status"]["migrationState"]

def recordedUid : Option String := (record vmi)["migrationUid"].asStr?.filter (· ≠ "")

def isCompleted : Bool := (record vmi)["completed"].asBool? = some true

def hasFailed : Bool := (record vmi)["failed"].asBool? = some true

def targetOf : Option String := (record vmi)["targetNode"].asStr?.filter (· ≠ "")

def nodeOf : Option String := vmi["status"]["nodeName"].asStr?

def isSet (field : Value) : Bool := (field.asStr?.filter (· ≠ "")).isSome

variable (texts : TimeText)

def parse (value : Value) : Option Int := value.asStr?.bind texts.parse

/-- When the migration entered a phase, the last time it did. -/
def entered (phase : Phase) : Option Int :=
  (migration["status"]["phaseTransitionTimestamps"].asArray?.bind fun transitions =>
    transitions.reverse.find? (·["phase"] = .string phase.text)).bind
      (parse texts ·["phaseTransitionTimestamp"])

end

section

variable (texts : TimeText)

def statePatch (fields : Fields) : Value :=
  .object [("status", .object [("migrationState", .object fields)])]

/-- Nothing was sent: the migration is failed on the VMI by the controller. -/
def failOnVmi (reason : String) (now : Int) (abort : Bool) : Value :=
  statePatch ([("failed", .bool true), ("failureReason", .string reason),
    ("endTimestamp", .string (texts.format now))] ++
    if abort then [("abortRequested", .bool true), ("abortStatus", .string "Succeeded")] else [])

def abortPatch : Value := statePatch [("abortRequested", .bool true)]

def startPatch (uid source : String) : Value :=
  statePatch [("migrationUid", .string uid), ("sourceNode", .string source),
    ("mode", .string "PreCopy"),
    ("targetNode", .null), ("targetNodeAddress", .null), ("targetDirectMigrationNodePorts", .null),
    ("targetNodeDomainDetected", .null), ("startTimestamp", .null), ("endTimestamp", .null),
    ("completed", .bool false), ("failed", .bool false), ("failureReason", .null),
    ("abortRequested", .null), ("abortStatus", .null)]

/-- The machine is on its target. A label that names its node moves along. -/
def movePatch (vmi : Value) (target : String) : Value :=
  .object ([("status", .object [("nodeName", .string target)])] ++
    if vmi["metadata"]["labels"][NODE_LABEL].isString then
      [("metadata", .object [("labels", .object [(NODE_LABEL, .string target)])])]
    else [])

end

section

/-- The phase a migration is in, and the writes that take it there. -/
structure Plan where
  phase : Phase
  failure : Option String
  vmiPatch : Option Value
  releaseFinalizer : Bool
  requeueAt : Option Int

/-- A phase with nothing to write but itself. -/
def Plan.of (phase : Phase) : Plan := ⟨phase, none, none, false, none⟩

def Plan.fail (why : String) : Plan := ⟨.failed, some why, none, false, none⟩

variable (texts : TimeText) (migration : Value) (now : Int)

/-- This migration's state on the VMI. -/
def ours (vmi : Value) : Option Value :=
  if uidOf migration ≠ "" ∧ (record vmi)["migrationUid"].asStr? = some (uidOf migration) then
    some (record vmi)
  else none

def inFlight (vmi : Value) : Option Value :=
  (activeMigration vmi).filter fun state => state["migrationUid"].asStr? = some (uidOf migration)

def releasePlan : Plan :=
  let phase := phaseOf migration
  ⟨if isFinal phase then phaseStatic phase else .failed,
    if isFinal phase then none else some "aborted: the migration was deleted", none, true, none⟩

/-- A deletion aborts what is in flight: at once where nothing has been sent, else by the source. -/
def planDeleting (vmi : Option Value) : Plan :=
  let release := releasePlan migration
  match vmi.bind (inFlight migration) with
  | none => release
  | some state =>
    if !isSet state["startTimestamp"] then
      { release with
        vmiPatch := some (failOnVmi texts "aborted: the migration was deleted" now true) }
    else
      let asked := (parse texts migration["metadata"]["deletionTimestamp"]).getD now
      let deadline := asked + ABORT_WAIT_SECS * Cron.second
      if deadline ≤ now then release
      else ⟨phaseStatic (phaseOf migration), none,
        if state["abortRequested"].asBool? ≠ some true then some abortPatch else none, false,
        some deadline⟩

/-- One migration of a VMI at a time: it waits here for the others. -/
def planPending (vmi : Value) : Plan :=
  if (inFlight migration vmi).isSome then .of .scheduling
  else if vmi["status"]["phase"].asStr? ≠ some "Running" then
    .fail ("VirtualMachineInstance " ++ vmiName migration ++ " is not running (phase " ++
      vmi["status"]["phase"].asStr?.getD "unset" ++ ")")
  else
    match (nodeOf vmi).filter (· ≠ "") with
    | none => .fail ("VirtualMachineInstance " ++ vmiName migration ++ " is not on a node")
    | some source =>
      if (activeMigration vmi).isSome then .of .pending
      else { Plan.of .scheduling with vmiPatch := some (startPatch (uidOf migration) source) }

/-- The machine has moved, and the VMI says so. -/
def isMoved (vmi : Value) (target : String) : Bool :=
  nodeOf vmi = some target ∧
    (vmi["metadata"]["labels"][NODE_LABEL].asStr?.all fun label => decide (label = target)) = true

/-- Too late: the migration is failed on the VMI too. -/
def planTimeout (why : String) : Plan :=
  { Plan.fail why with vmiPatch := some (failOnVmi texts why now false) }

/-- The phase follows what the VMI records. -/
def planRecorded (vmi : Value) : Plan :=
  match ours migration vmi with
  | none => .fail
    ("VirtualMachineInstance " ++ vmiName migration ++ " no longer records this migration")
  | some state =>
    if hasFailed vmi then .fail (state["failureReason"].asStr?.getD "the source reported failure")
    else if isCompleted vmi then
      match targetOf vmi with
      | none => .fail "reported completed with no target node"
      | some target =>
        { Plan.of .succeeded with
          vmiPatch := if isMoved vmi target then none else some (movePatch vmi target) }
    else if isSet state["startTimestamp"] then .of .running
    else
      match targetOf vmi with
      | none =>
        let since := (entered migration texts .scheduling).getD now
        let deadline := since + SCHEDULING_TIMEOUT_SECS * Cron.second
        if deadline ≤ now then
          planTimeout texts now "no node could take the migration target within 300 s"
        else { Plan.of .scheduling with requeueAt := some deadline }
      | some _ =>
        let created := (parse texts migration["metadata"]["creationTimestamp"]).getD now
        let deadline := created + PREPARE_TIMEOUT_SECS * Cron.second
        if deadline ≤ now then planTimeout texts now "the migration did not start within 900 s"
        else
          { Plan.of (if isSet state["targetNodeAddress"] then .targetReady
              else .preparingTarget) with
            requeueAt := some deadline }

/-- The next step of a migration, given its VMI as it was seen. -/
def plan (vmi : Option Value) : Plan :=
  let phase := phaseOf migration
  if isDeleting migration then planDeleting texts migration now vmi
  else if isFinal phase then .of (phaseStatic phase)
  else
    match vmi.filter (!isDeleting ·) with
    | none => .fail ("VirtualMachineInstance " ++ vmiName migration ++ " does not exist")
    | some vmi =>
      if phase = "" ∨ phase = "Pending" then planPending migration vmi
      else planRecorded texts migration now vmi

end

section

variable {texts : TimeText} {migration vmi patch : Value} {now : Int} {seen : Option Value}

/-- The VMI records a migration as completed, with its target. -/
structure Settles (vmi : Value) (uid target : String) : Prop where
  recorded : recordedUid vmi = some uid
  completed : isCompleted vmi = true
  target : targetOf vmi = some target

/-- What a pass may write on the VMI it has seen. -/
inductive Writes (migration vmi : Value) : Value → Prop
  | start (source : String) (waiting : ¬ isDeleting migration = true)
      (early : phaseOf migration = "" ∨ phaseOf migration = "Pending")
        (free : activeMigration vmi = none) :
      Writes migration vmi (startPatch (uidOf migration) source)
  | state (fields : Fields) (uid : fields.lookup "migrationUid" = none)
      (completed : fields.lookup "completed" = none) (target : fields.lookup "targetNode" = none) :
      Writes migration vmi (statePatch fields)
  | move (target : String) (settles : Settles vmi (uidOf migration) target) :
      Writes migration vmi (movePatch vmi target)

theorem recorded_of_ours {state : Value} (found : ours migration vmi = some state) :
    recordedUid vmi = some (uidOf migration) := by
  unfold ours at found
  split_ifs at found with same
  rw [recordedUid, same.2]
  simp [same.1]

theorem phaseStatic_succeeded {phase : String} (succeeded : phaseStatic phase = .succeeded) :
    phase = "Succeeded" := by
  unfold phaseStatic at succeeded
  split_ifs at succeeded
  assumption

/-- What every plan has in common. -/
structure Fits (texts : TimeText) (migration : Value) (now : Int) (seen : Option Value)
    (plan : Plan) : Prop where
  writes : ∀ patch, plan.vmiPatch = some patch → ∃ vmi, seen = some vmi ∧ Writes migration vmi patch
  -- A migration succeeds where it has already, or the VMI records it so and its node is moved.
  succeeded : plan.phase = .succeeded → phaseOf migration = "Succeeded" ∨ ∃ vmi target,
    seen = some vmi ∧ Settles vmi (uidOf migration) target ∧
      (plan.vmiPatch = none ∧ nodeOf vmi = some target ∨ plan.vmiPatch = some
        (movePatch vmi target))
  -- What fails is failed on the VMI too, if anything is written there.
  failed : plan.phase = .failed → (isDeleting migration = true → plan.releaseFinalizer = true) →
    ∀ patch, plan.vmiPatch = some patch → ∃ why abort, patch = failOnVmi texts why now abort
  releases : plan.releaseFinalizer = true → isDeleting migration = true

variable {phase : Phase} {failure : Option String} {release : Bool} {requeue : Option Int}

theorem fits_quiet (other : phase = .succeeded → phaseOf migration = "Succeeded")
    (releases : release = true → isDeleting migration = true) :
    Fits texts migration now seen ⟨phase, failure, none, release, requeue⟩ :=
  ⟨nofun, fun succeeded => .inl (other succeeded), fun _ _ => nofun, releases⟩

theorem fits_failOnVmi {why : String} {abort : Bool}
    (other : phase = .succeeded → phaseOf migration = "Succeeded")
    (releases : release = true → isDeleting migration = true) : Fits texts migration now (some vmi)
      ⟨phase, failure, some (failOnVmi texts why now abort), release, requeue⟩ := by
  refine ⟨?_, fun succeeded => .inl (other succeeded), ?_, releases⟩
  · rintro patch ⟨⟩
    exact ⟨vmi, rfl, by cases abort <;> exact .state _ rfl rfl rfl⟩
  · rintro - - patch ⟨⟩
    exact ⟨why, abort, rfl⟩

theorem fits_release (deleting : isDeleting migration = true) (vmiPatch : Option Value)
    (isPatch : vmiPatch = none ∨ ∃ vmi, seen = some vmi ∧
      vmiPatch = some (failOnVmi texts "aborted: the migration was deleted" now true)) :
    Fits texts migration now seen { releasePlan migration with vmiPatch } := by
  have other : (releasePlan migration).phase = .succeeded → phaseOf migration = "Succeeded" := by
    unfold releasePlan
    dsimp only
    split
    · exact phaseStatic_succeeded
    · exact nofun
  rcases isPatch with rfl | ⟨vmi, rfl, rfl⟩
  · exact fits_quiet other fun _ => deleting
  · exact fits_failOnVmi other fun _ => deleting

theorem planDeleting_fits (deleting : isDeleting migration = true) :
    Fits texts migration now seen (planDeleting texts migration now seen) := by
  unfold planDeleting
  dsimp only
  split
  · exact fits_release deleting none (.inl rfl)
  · next state found =>
    obtain ⟨vmi, isSeen, -⟩ := bind_eq_some_iff.mp found
    subst isSeen
    split
    · exact fits_release deleting _ (.inr ⟨vmi, rfl, rfl⟩)
    · split
      · exact fits_release deleting none (.inl rfl)
      · split
        · refine ⟨?_, fun succeeded => .inl (phaseStatic_succeeded succeeded), ?_, ?_⟩
          · rintro patch ⟨⟩
            exact ⟨vmi, rfl, .state _ rfl rfl rfl⟩
          · exact fun _ releases => absurd (releases deleting) nofun
          · exact nofun
        · exact fits_quiet phaseStatic_succeeded nofun

theorem planPending_fits (waiting : ¬ isDeleting migration = true)
    (early : phaseOf migration = "" ∨ phaseOf migration = "Pending") :
    Fits texts migration now (some vmi) (planPending migration vmi) := by
  unfold planPending
  split
  · exact fits_quiet nofun nofun
  · split
    · exact fits_quiet nofun nofun
    · split
      · exact fits_quiet nofun nofun
      · split
        · exact fits_quiet nofun nofun
        · next free =>
          refine ⟨?_, nofun, nofun, nofun⟩
          rintro patch ⟨⟩
          exact ⟨vmi, rfl, .start _ waiting early (not_isSome_iff_eq_none.mp free)⟩

theorem planRecorded_fits :
    Fits texts migration now (some vmi) (planRecorded texts migration now vmi) := by
  unfold planRecorded
  split
  · exact fits_quiet nofun nofun
  · next state recorded =>
    split
    · exact fits_quiet nofun nofun
    · split
      · next completed =>
        split
        · exact fits_quiet nofun nofun
        · next target isTarget =>
          have settles : Settles vmi (uidOf migration) target :=
            ⟨recorded_of_ours recorded, completed, isTarget⟩
          by_cases moved : isMoved vmi target = true
          · have node : nodeOf vmi = some target := (of_decide_eq_true moved).1
            simp only [if_pos moved]
            exact ⟨nofun, fun _ => .inr ⟨vmi, target, rfl, settles, .inl ⟨rfl, node⟩⟩, nofun, nofun⟩
          · simp only [if_neg moved]
            refine ⟨?_, fun _ => .inr ⟨vmi, target, rfl, settles, .inr rfl⟩, nofun, nofun⟩
            rintro patch ⟨⟩
            exact ⟨vmi, rfl, .move target settles⟩
      · split
        · exact fits_quiet nofun nofun
        · split
          · dsimp only
            split
            · exact fits_failOnVmi nofun nofun
            · exact fits_quiet nofun nofun
          · dsimp only
            split
            · exact fits_failOnVmi nofun nofun
            · refine fits_quiet ?_ nofun
              split <;> exact nofun

theorem plan_fits : Fits texts migration now seen (plan texts migration now seen) := by
  unfold plan
  dsimp only
  split
  · next deleting => exact planDeleting_fits deleting
  · next waiting =>
    split
    · exact fits_quiet phaseStatic_succeeded nofun
    · split
      · exact fits_quiet nofun nofun
      · next vmi isSeen =>
        obtain ⟨rfl, -⟩ := filter_eq_some_iff.mp isSeen
        split
        · next early => exact planPending_fits waiting early
        · exact planRecorded_fits

theorem plan_of_settles {target : String} (settles : Settles vmi (uidOf migration) target)
    (kept : isDeleting migration = false) (going : isFinal (phaseOf migration) = false)
    (begun : ¬ (phaseOf migration = "" ∨ phaseOf migration = "Pending"))
    (alive : isDeleting vmi = false)
    (sound : hasFailed vmi = false) : (plan texts migration now (some vmi)).phase = .succeeded := by
  have ⟨isUid, named⟩ := filter_eq_some_iff.mp settles.recorded
  have isOurs : ours migration vmi = some (record vmi) := if_pos ⟨by simpa using named, isUid⟩
  simp [plan, kept, going, begun, alive, planRecorded, isOurs, sound, settles.completed,
    settles.target, Option.filter, Plan.of]

end

/-- The phases in the order in which they come. -/
def orderedPhases : List Phase :=
  [.pending, .scheduling, .scheduled, .preparingTarget, .targetReady, .running, .succeeded]

/-- Phases skipped between two observations still happened, in order. -/
def passedPhases (last : String) (phase : Phase) : List Phase :=
  match orderedPhases.findIdx? (·.text = last), orderedPhases.findIdx? (· = phase) with
  | some first, some next =>
    if first < next then (orderedPhases.take (next + 1)).drop (first + 1) else [phase]
  | none, some next => if last = "" then orderedPhases.take (next + 1) else [phase]
  | _, none => [phase]

variable (texts : TimeText) (migration : Value) (vmi : Option Value) (plan : Plan) (now : Int)

/-- The VMI's state for this migration, with the controller's reason for its failure. -/
def mirror : Value :=
  let seen := ((vmi.map record).filter fun state => state["migrationUid"].asStr? = some
    (uidOf migration)).getD migration["status"]["migrationState"]
  match plan.failure with
  | some why =>
    ((if seen.isObject then seen else .object []).insert "failed" (.bool true)).insert
      "failureReason" (.string why)
  | none => seen

def transitions : List Value :=
  (migration["status"]["phaseTransitionTimestamps"].asArray?).getD [] ++
    if phaseOf migration = plan.phase.text then []
    else (passedPhases (phaseOf migration) plan.phase).map fun phase =>
      .object [("phase", .string phase.text),
        ("phaseTransitionTimestamp", .string (texts.format now))]

def newStatus : Value :=
  let shown := mirror migration vmi plan
  .object ([("phase", .string plan.phase.text),
    ("phaseTransitionTimestamps", .array (transitions texts migration plan now))] ++
    if shown.isObject then [("migrationState", shown)] else [])

/-- The migration's own status after the plan, if it changes. -/
def desiredStatus : Option Value :=
  let status := newStatus texts migration vmi plan now
  let current := migration["status"]
  let unchanged := current["phase"] = status["phase"] ∧
    current["phaseTransitionTimestamps"] = status["phaseTransitionTimestamps"] ∧
    current["migrationState"] = status["migrationState"]
  if unchanged then none else some status

end Rustkube.VmiMigration
