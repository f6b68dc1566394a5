import Rustkube.ControllerObjects
import Rustkube.Rollout

/- A Job's pass: Pods are counted by phase, more are made while more are wanted. -/
namespace Rustkube.Job

open Option Json Controllers Rollout Value

section

def phaseOf (pod : Value) : String := pod["status"]["phase"].asStr?.getD "Pending"

def hasSucceeded (pod : Value) : Bool := phaseOf pod = "Succeeded"

def hasFailed (pod : Value) : Bool := phaseOf pod = "Failed"

def isActive (pod : Value) : Bool := !hasSucceeded pod && !hasFailed pod

variable (job : Value)

/-- Another controller's Job is left alone. -/
def managedHere : Bool :=
  match job["spec"]["managedBy"].asStr? with
  | none => true
  | some manager => manager = "kubernetes.io/job-controller"

def conditionsOf : List Value := job["status"]["conditions"].asArray?.getD []

def isMarked (kind : String) : Bool :=
  (conditionsOf job).any fun condition =>
    textOf condition["type"] = kind ∧ textOf condition["status"] = "True"

def isFinished : Bool := isMarked job "Complete" || isMarked job "Failed"

def completions : Nat := (count? job["spec"]["completions"]).getD 1

def parallelism : Nat := (count? job["spec"]["parallelism"]).getD 1

def backoffLimit : Nat := (count? job["spec"]["backoffLimit"]).getD 6

/-- The wall clock: the time as text, and the whole seconds since a text that is a time. -/
structure Clock where
  text : String
  since : String → Option Int

def deadlineExceeded (clock : Clock) : Bool :=
  match count? job["spec"]["activeDeadlineSeconds"], job["status"]["startTime"].asStr?.bind
    clock.since with
  | some deadline, some elapsed => 0 ≤ elapsed && (deadline : Int) ≤ elapsed
  | _, _ => false

end

section

variable (now : String)

/-- The counts, and the start if it is not there. -/
def countsIn (active succeeded failed : Nat) (status : Value) : Value :=
  if status.isObject then
    let counted := ((status.insert "active" (.number active)).insert "succeeded"
      (.number succeeded)).insert "failed" (.number failed)
    if (counted.get? "startTime").isNone then counted.insert "startTime" (.string now) else counted
  else .object [("active", .number active), ("succeeded", .number succeeded),
    ("failed", .number failed), ("startTime", .string now)]

variable (kind reason : String)

def conditionValue : Value :=
  .object [("type", .string kind), ("status", .string "True"), ("reason", .string reason),
    ("lastTransitionTime", .string now)]

/-- A condition of that type is replaced, unless it says the same. -/
def upsert : List Value → List Value
  | [] => [conditionValue now kind reason]
  | old :: rest =>
    if old["type"].asStr? = some kind then
      (if old["status"].asStr? = some "True" ∧ old["reason"].asStr? = some reason then old
        else conditionValue now kind reason) :: rest
    else old :: upsert rest

def withCondition (status : Value) : Value :=
  let status := if kind = "Complete" ∧ status["completionTime"].isNull then
    status.insert "completionTime" (.string now) else status
  match (status.get? "conditions").getD (.array []) with
  | .array conditions => status.insert "conditions" (.array (upsert now kind reason conditions))
  | _ => status

def newStatus (status : Value) (active succeeded failed : Nat)
    (condition : Option (String × String)) : Value :=
  let counted := countsIn now active succeeded failed status
  match condition with
  | some (kind, reason) => withCondition now kind reason counted
  | none => counted

/-- The Job as it is written back, spec and all. -/
def updateJobStatus (job : Value) (active succeeded failed : Nat)
    (condition : Option (String × String)) : Value :=
  (job.assign "status" (newStatus now job["status"] active succeeded failed condition)).getD job

end

section

def buildJobPod (namespaceName : String) (job : Value) (suffix : String) : Value :=
  let template := job["spec"]["template"]
  let labels := template["metadata"]["labels"]
  let spec := template["spec"]
  .object [("apiVersion", .string "v1"), ("kind", .string "Pod"),
    ("metadata", .object [("name", .string (nameOf job ++ "-" ++ suffix)),
      ("namespace", .string namespaceName),
      ("labels", (if labels.isNull then .object [] else labels).insert "job-name"
        (.string (nameOf job))),
      ("ownerReferences", .array [ownerReference "batch/v1" "Job" job])]),
    ("spec", if (spec.get? "restartPolicy").isNone then spec.insert "restartPolicy"
      (.string "Never") else spec),
    ("status", .object [("phase", .string "Pending")])]

/-- What a pass asks for: Pods that are deleted, how many are made, and the Job with its status. -/
structure Pass where
  deletes : List Value
  creates : Nat
  update : Value

variable (clock : Clock) (job : Value) (pods : List Value)

/-- `reconcile_job`. A Job that is being deleted, is another controller's or has finished is
left. -/
def reconcileJob : Except String (Option Pass) :=
  if job["metadata"]["name"].asStr?.isNone then .error "job missing name"
  else if isDeleting job || !managedHere job || isFinished job then .ok none
  else
    let owned := pods.filter (ownedBy · (uidOf job))
    let active := owned.countP isActive
    let succeeded := owned.countP hasSucceeded
    let failed := owned.countP hasFailed
    let update := updateJobStatus clock.text job
    if deadlineExceeded job clock then
      .ok (some ⟨owned.filter fun pod => isActive pod && nameOf pod ≠ "", 0,
        update 0 succeeded failed (some ("Failed", "DeadlineExceeded"))⟩)
    else if backoffLimit job < failed then
      .ok (some ⟨[], 0, update active succeeded failed (some ("Failed", "BackoffLimitExceeded"))⟩)
    else if completions job ≤ succeeded then
      .ok (some ⟨[], 0, update active succeeded failed (some ("Complete", "Completed"))⟩)
    else
      let creates := if active < parallelism job ∧ succeeded + active < completions job then
        min (parallelism job - active) (completions job - succeeded - active) else 0
      .ok (some ⟨[], creates, update active succeeded failed none⟩)

end

section

variable {now kind reason : String} {active succeeded failed : Nat} {status job : Value}

theorem countsIn_isObject : (countsIn now active succeeded failed status).isObject = true := by
  unfold countsIn
  dsimp only
  split_ifs with shape
  · simpa only [isObject_insert] using shape
  · simpa only [isObject_insert] using shape
  · rfl

theorem countsIn_counts :
    (countsIn now active succeeded failed status)["succeeded"] = .number succeeded ∧
      (countsIn now active succeeded failed status)["failed"] = .number failed := by
  unfold countsIn
  dsimp only
  by_cases shape : status.isObject = true
  · have outer : (status.insert "active" (.number active)).isObject = true := by
      rwa [isObject_insert]
    have inner : ((status.insert "active" (.number active)).insert "succeeded"
        (.number succeeded)).isObject = true := by
      rwa [isObject_insert]
    have counts : (((status.insert "active" (.number active)).insert "succeeded"
          (.number succeeded)).insert "failed" (.number failed))["succeeded"] = .number succeeded ∧
        (((status.insert "active" (.number active)).insert "succeeded"
          (.number succeeded)).insert "failed" (.number failed))["failed"] = .number failed := by
      refine ⟨?_, index_insert_self inner⟩
      rw [index_insert_of_ne (by decide), index_insert_self outer]
    split_ifs
    · exact ⟨(index_insert_of_ne (by decide)).trans counts.1,
        (index_insert_of_ne (by decide)).trans counts.2⟩
    · exact counts
  · rw [if_neg shape]
    exact ⟨rfl, rfl⟩

theorem countsIn_conditions :
    (countsIn now active succeeded failed status).get? "conditions" = status.get? "conditions" := by
  unfold countsIn
  dsimp only
  split_ifs with shape
  · iterate 4 rw [get?_insert_of_ne (by decide)]
  · iterate 3 rw [get?_insert_of_ne (by decide)]
  · cases status with
    | object fields => exact absurd rfl shape
    | _ => rfl

theorem withCondition_of_ne {name : String} (notTime : name ≠ "completionTime")
    (notConditions : name ≠ "conditions") :
    (withCondition now kind reason status)[name] = status[name] := by
  have timed : (if kind = "Complete" ∧ status["completionTime"].isNull then
      status.insert "completionTime" (.string now) else status)[name] = status[name] := by
    split_ifs
    · exact index_insert_of_ne notTime
    · rfl
  unfold withCondition
  dsimp only
  split
  · rw [index_insert_of_ne notConditions, timed]
  · exact timed

theorem upsert_marks (conditions : List Value) :
    ∃ condition ∈ upsert now kind reason conditions,
      textOf condition["type"] = kind ∧ textOf condition["status"] = "True" := by
  have made : textOf (conditionValue now kind reason)["type"] = kind ∧
      textOf (conditionValue now kind reason)["status"] = "True" := ⟨rfl, rfl⟩
  induction conditions with
  | nil => exact ⟨_, List.mem_singleton_self _, made⟩
  | cons old rest ih =>
    unfold upsert
    split_ifs with same already
    · refine ⟨old, .head _, ?_, ?_⟩
      · rw [textOf, same, getD_some]
      · rw [textOf, already.1, getD_some]
    · exact ⟨_, .head _, made⟩
    · have ⟨condition, member, marks⟩ := ih
      exact ⟨condition, .tail _ member, marks⟩

/-- The conditions are a list, or not there. -/
def Shaped (job : Value) : Prop :=
  ∀ conditions ∈ job["status"].get? "conditions", conditions.asArray?.isSome = true

instance (job : Value) : Decidable (Shaped job) :=
  inferInstanceAs (Decidable (∀ conditions ∈ job["status"].get? "conditions", _))

theorem withCondition_marks (shape : status.isObject = true)
    (listed : ∀ conditions ∈ status.get? "conditions", conditions.asArray?.isSome = true) :
    ∃ conditions, (withCondition now kind reason status).get? "conditions" = some
      (.array conditions) ∧
      ∃ condition ∈ conditions, textOf condition["type"] = kind ∧ textOf condition["status"] =
          "True" := by
  unfold withCondition
  dsimp only
  set timed := if kind = "Complete" ∧ status["completionTime"].isNull then
    status.insert "completionTime" (.string now) else status with isTimed
  have timedShape : timed.isObject = true := by
    rw [isTimed]
    split_ifs
    · rwa [isObject_insert]
    · exact shape
  have timedListed : timed.get? "conditions" = status.get? "conditions" := by
    rw [isTimed]
    split_ifs
    · exact get?_insert_of_ne (by decide)
    · rfl
  have isArray : ∃ conditions, (timed.get? "conditions").getD (.array []) = .array conditions := by
    rw [timedListed]
    cases found : status.get? "conditions" with
    | none => exact ⟨[], rfl⟩
    | some value =>
      have array := listed value found
      cases value with
      | array conditions => exact ⟨conditions, rfl⟩
      | _ => cases array
  have ⟨conditions, isList⟩ := isArray
  rw [isList]
  exact ⟨_, get?_insert_self timedShape, upsert_marks conditions⟩

theorem newStatus_counts (condition : Option (String × String)) :
    (newStatus now status active succeeded failed condition)["succeeded"] = .number succeeded ∧
      (newStatus now status active succeeded failed condition)["failed"] = .number failed := by
  have counts := @countsIn_counts now active succeeded failed status
  unfold newStatus
  cases condition with
  | none => exact counts
  | some condition =>
    rw [withCondition_of_ne (by decide) (by decide), withCondition_of_ne (by decide) (by decide)]
    exact counts

theorem newStatus_marks
    (listed : ∀ conditions ∈ status.get? "conditions", conditions.asArray?.isSome = true) :
    ∃ conditions,
      (newStatus now status active succeeded failed (some (kind, reason))).get? "conditions" =
        some (.array conditions) ∧
      ∃ condition ∈ conditions, textOf condition["type"] = kind ∧ textOf condition["status"] =
        "True" :=
  withCondition_marks countsIn_isObject (countsIn_conditions.symm ▸ listed)

/-- A Job as a pass writes it back. -/
structure Written (job after : Value) (succeeded failed : Nat) : Prop where
  metadata : after["metadata"] = job["metadata"]
  spec : after["spec"] = job["spec"]
  succeeded : after["status"]["succeeded"] = .number succeeded
  failed : after["status"]["failed"] = .number failed
  shaped : Shaped after

section

variable (object : job.isObject = true) (shaped : Shaped job)

include object shaped

theorem updateJobStatus_written (condition : Option (String × String)) :
    Written job (updateJobStatus now job active succeeded failed condition) succeeded failed := by
  set status := newStatus now job["status"] active succeeded failed condition with isStatus
  obtain ⟨after, written⟩ : ∃ after, job.assign "status" status = some after :=
    assign_of_isObject object
  have counts : status["succeeded"] = .number succeeded ∧ status["failed"] = .number failed :=
    newStatus_counts condition
  have update : updateJobStatus now job active succeeded failed condition = after := by
    rw [updateJobStatus, ← isStatus, written, getD_some]
  have placed := assign_self written
  rw [update]
  refine ⟨assign_of_ne written (by decide), assign_of_ne written (by decide), ?_, ?_, ?_⟩
  · rw [placed, counts.1]
  · rw [placed, counts.2]
  · unfold Shaped
    rw [placed, isStatus]
    cases condition with
    | none =>
      rw [newStatus, countsIn_conditions]
      exact shaped
    | some condition =>
      obtain ⟨conditions, found, -⟩ :=
        @newStatus_marks now condition.1 condition.2 active succeeded failed job["status"] shaped
      intro value isValue
      cases found.symm.trans isValue
      rfl

theorem updateJobStatus_marked :
    isMarked (updateJobStatus now job active succeeded failed (some (kind, reason))) kind =
      true := by
  have ⟨conditions, found, condition, member, marks⟩ := @newStatus_marks now kind reason active
    succeeded failed job["status"] shaped
  obtain ⟨after, written⟩ : ∃ after, job.assign "status"
      (newStatus now job["status"] active succeeded failed (some (kind, reason))) = some after :=
    assign_of_isObject object
  have placed := assign_self written
  have list : conditionsOf after = conditions := by
    rw [conditionsOf, placed, index_eq, found]
    rfl
  rw [updateJobStatus, written, getD_some, isMarked, list, List.any_eq_true]
  exact ⟨condition, member, decide_eq_true marks⟩

end

theorem isObject_of_named (named : job["metadata"]["name"].asStr?.isNone = false) :
    job.isObject = true := by
  cases job with
  | object fields => rfl
  | _ => cases named

end

variable {clock : Clock} {job : Value} {pods : List Value} {pass : Pass}

/-- What a pass that is not skipped comes to. -/
structure Counted (job : Value) (pods : List Value) (pass : Pass) : Prop where
  unfinished : isFinished job = false
  written : Written job pass.update (pods.countP hasSucceeded) (pods.countP hasFailed)
  room : 0 < pass.creates →
    pods.countP hasSucceeded + pods.countP isActive + pass.creates ≤ completions job
  fails : backoffLimit job < pods.countP hasFailed → isMarked pass.update "Failed" = true

theorem reconcileJob_counted (shaped : Shaped job)
    (mine : ∀ pod ∈ pods, ownedBy pod (uidOf job) = true)
    (ran : reconcileJob clock job pods = .ok (some pass)) : Counted job pods pass := by
  have owned : pods.filter (ownedBy · (uidOf job)) = pods := List.filter_eq_self.mpr mine
  unfold reconcileJob at ran
  by_cases named : job["metadata"]["name"].asStr?.isNone = true
  · rw [if_pos named] at ran
    cases ran
  · have object := isObject_of_named (Bool.eq_false_of_not_eq_true named)
    rw [if_neg named, owned] at ran
    by_cases skipped : (isDeleting job || !managedHere job || isFinished job) = true
    · rw [if_pos skipped] at ran
      cases ran
    · have unfinished : isFinished job = false := by
        cases finished : isFinished job with
        | false => rfl
        | true => simp [finished] at skipped
      dsimp only at ran
      split_ifs at ran with late many enough few
      all_goals cases Except.ok.inj ran
      · exact ⟨unfinished, updateJobStatus_written object shaped _, nofun, fun _ =>
          updateJobStatus_marked object shaped⟩
      · exact ⟨unfinished, updateJobStatus_written object shaped _, nofun, fun _ =>
          updateJobStatus_marked object shaped⟩
      · exact ⟨unfinished, updateJobStatus_written object shaped _, nofun, fun tooMany =>
          absurd tooMany many⟩
      · exact ⟨unfinished, updateJobStatus_written object shaped _, fun _ => by dsimp only; omega,
          fun tooMany => absurd tooMany many⟩
      · exact ⟨unfinished, updateJobStatus_written object shaped _, nofun, fun tooMany =>
          absurd tooMany many⟩

end Rustkube.Job
