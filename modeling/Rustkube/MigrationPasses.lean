import Rustkube.VmiMigration
import Rustkube.Lib.Versions

/- Passes over the migrations of a VMI, call by call, among the reports of its nodes. -/
namespace Rustkube.VmiMigration

open Json Controllers Scheduler Cron Patch

section

inductive Stage where
  /-- the finalizer is added -/
  | adopt
  | vmi
  | status
  | release
deriving DecidableEq

/-- A pass: the migration and the VMI it has seen, and the VMI as its own patch left it. -/
structure Pass where
  name : String
  migration : Version Value
  vmi : Option (Version Value)
  latest : Option (Version Value)
  now : Int
  stage : Stage

variable (texts : TimeText)

namespace Pass

variable (pass : Pass)

def plan : Plan :=
  VmiMigration.plan texts pass.migration.object pass.now (pass.vmi.map Version.object)

/-- The status that the pass writes, if it writes one. -/
def status? : Option Value :=
  if isDeleting pass.migration.object && !(pass.plan texts).releaseFinalizer then none
  else desiredStatus texts pass.migration.object (pass.vmi.map Version.object)
    (pass.plan texts) pass.now

def toRelease : Option Pass :=
  if (pass.plan texts).releaseFinalizer then some { pass with stage := .release } else none

def toStatus : Option Pass :=
  if (pass.status? texts).isSome then some { pass with stage := .status } else pass.toRelease texts

end Pass

/-- `reconcile`, up to its first call. -/
def reconcile (name : String) (migration : Version Value) (vmi : Option (Version Value))
    (now : Int) : Option Pass :=
  let pass : Pass := ⟨name, migration, vmi, vmi, now, .adopt⟩
  if !hasFinalizer migration.object then
    if isDeleting migration.object || isFinal (phaseOf migration.object) then none else some pass
  else if (pass.plan texts).vmiPatch.isSome && vmi.isSome then some { pass with stage := .vmi }
  else pass.toStatus texts

/-- The VMI and the migrations, with all their versions, and the passes under way; with the
migrations that the VMI has ever recorded. -/
structure State where
  vmis : Versions Unit Value
  migrations : Versions String Value
  passes : List Pass
  started : List String

inductive Action where
  | start (name : String) (migration : Version Value) (vmi : Option (Version Value)) (now : Int)
  | call (index : Nat) (outcome : Outcome)
  /-- the pass is cut off -/
  | stop (index : Nat)
  /-- the nodes, the scheduler and others write the VMI -/
  | report (object : Value)
  | makeVmi (object : Value)
  | removeVmi
  /-- a user makes a migration, changes it, or deletes it -/
  | request (name : String) (object : Value)
  /-- a deleted migration that nobody holds is removed -/
  | collect (name : String)

def setFinalizers (migration : Value) (kept : List Value) : Value :=
  merge migration (.object [("metadata", .object [("finalizers", .array kept)])])

/-- A write that is of the version that was seen. -/
def swaps (stored seen : Version Value) (outcome : Outcome) : Bool :=
  outcome ≠ .failed ∧ stored.number = seen.number

namespace State

variable (state : State)

/-- The pass goes on, or is over. -/
def advance (index : Nat) (next : Option Pass) : State :=
  match next with
  | some pass => { state with passes := state.passes.set index pass }
  | none => { state with passes := state.passes.eraseIdx index }

def writeVmi (object : Value) : State :=
  { state with
    vmis := state.vmis.write () object
    started := (recordedUid object).toList ++ state.started }

def writeMigration (name : String) (object : Value) : State :=
  { state with migrations := state.migrations.write name object }

def removeMigration (name : String) : State :=
  { state with migrations := state.migrations.remove name }

end State

variable (state : State) (index : Nat) (pass : Pass) (outcome : Outcome)

def adopt : State :=
  match state.migrations.current pass.name with
  | some stored =>
    if swaps stored pass.migration outcome then
      (state.writeMigration pass.name
        (setFinalizers stored.object
          (finalizers pass.migration.object ++ [.string FINALIZER]))).advance index none
    else state.advance index none
  | none => state.advance index none

/-- A pass whose patch does not go through ends there. -/
def patchVmi : State :=
  match (pass.plan texts).vmiPatch, pass.vmi, state.vmis.current () with
  | some patch, some seen, some stored =>
    if swaps stored seen outcome then
      let object := merge stored.object patch
      (state.writeVmi object).advance index (if outcome = .served then
        ({ pass with latest := some (state.vmis.next object) } : Pass).toStatus texts else none)
    else state.advance index none
  | _, _, _ => state.advance index none

/-- The status is written whatever version of the migration is stored. A migration that is being
deleted is released all the same. -/
def patchStatus : State :=
  match pass.status? texts, state.migrations.current pass.name with
  | some status, some stored =>
    let next := if outcome = .served || isDeleting pass.migration.object then pass.toRelease texts
      else none
    if outcome = .failed then state.advance index next
    else (state.writeMigration pass.name
      (merge stored.object (.object [("status", status)]))).advance index next
  | _, _ =>
    state.advance index (if isDeleting pass.migration.object then pass.toRelease texts else none)

def release : State :=
  match state.migrations.current pass.name with
  | some stored =>
    let kept := (finalizers pass.migration.object).filter (· ≠ .string FINALIZER)
    if swaps stored pass.migration outcome then
      if kept.isEmpty && isDeleting stored.object then (state.removeMigration pass.name).advance
        index none
      else (state.writeMigration pass.name (setFinalizers stored.object kept)).advance index none
    else state.advance index none
  | none => state.advance index none

def call : State :=
  match pass.stage with
  | .adopt => adopt state index pass outcome
  | .vmi => patchVmi texts state index pass outcome
  | .status => patchStatus texts state index pass outcome
  | .release => release state index pass outcome

def step (state : State) : Action → Option State
  | .start name migration vmi now =>
    some { state with passes := state.passes ++ (reconcile texts name migration vmi now).toList }
  | .call index outcome => state.passes[index]?.map fun pass => call texts state index pass outcome
  | .stop index => some (state.advance index none)
  | .report object | .makeVmi object => some (state.writeVmi object)
  | .removeVmi => some { state with vmis := state.vmis.remove () }
  | .request name object => some (state.writeMigration name object)
  | .collect name => some (state.removeMigration name)

/-- A report leaves alone which migration is recorded, the target of one that is completed, and the
node of a machine that has one. -/
def Reports (stored object : Value) : Prop :=
  recordedUid object = recordedUid stored ∧
    (isCompleted stored = true → isCompleted object = true ∧ targetOf object = targetOf stored) ∧
    ((nodeOf stored).isSome = true → nodeOf object = nodeOf stored)

instance (stored object : Value) : Decidable (Reports stored object) :=
  inferInstanceAs (Decidable (_ ∧ _ ∧ _))

/-- A user leaves a migration's uid, status and finalizers alone, and makes none that is final. -/
def Requests (stored : Option (Version Value)) (object : Value) : Prop :=
  match stored with
  | some stored => uidOf object = uidOf stored.object ∧ object["status"] = stored.object["status"] ∧
      hasFinalizer object = hasFinalizer stored.object
  | none => isFinal (phaseOf object) = false

instance (stored : Option (Version Value)) (object : Value) : Decidable (Requests stored object) :=
  match stored with
  | some _ => inferInstanceAs (Decidable (_ ∧ _ ∧ _))
  | none => inferInstanceAs (Decidable (_ = false))

/-- Passes have seen any version that was stored at some time. -/
def Permitted (state : State) : Action → Prop
  | .start name migration vmi _ => (name, migration) ∈ state.migrations.past ∧
      ∀ seen ∈ vmi, ((), seen) ∈ state.vmis.past
  | .report object => ∃ stored ∈ state.vmis.current (), Reports stored.object object
  | .makeVmi object => state.vmis.current () = none ∧ recordedUid object = none
  | .request name object => Requests (state.migrations.current name) object
  | .collect name => ∀ stored ∈ state.migrations.current name,
      isDeleting stored.object = true ∧ hasFinalizer stored.object = false
  | _ => True

instance (state : State) (action : Action) : Decidable (Permitted state action) :=
  match action with
  | .start _ _ _ _ => inferInstanceAs (Decidable (_ ∧ ∀ _ ∈ _, _))
  | .report _ => inferInstanceAs (Decidable (∃ _ ∈ _, _))
  | .makeVmi _ => inferInstanceAs (Decidable (_ ∧ _))
  | .request _ _ => inferInstanceAs (Decidable (Requests _ _))
  | .collect _ => inferInstanceAs (Decidable (∀ _ ∈ _, _))
  | .call _ _ | .stop _ | .removeVmi => inferInstanceAs (Decidable True)

end

variable {vmi migration status stored : Value} {fields : Fields} {texts : TimeText}

theorem record_statePatch :
    record (merge vmi (statePatch fields)) = merge (record vmi) (.object fields) := by
  rw [record, statePatch, merge_index vmi (by simp) rfl rfl, merge_index _ (by simp) rfl rfl]
  rfl

theorem nodeOf_statePatch : nodeOf (merge vmi (statePatch fields)) = nodeOf vmi := by
  rw [nodeOf, statePatch, merge_index vmi (by simp) rfl rfl, merge_index_of_absent _ rfl]
  rfl

theorem statePatch_of_absent {name : String} (absent : fields.lookup name = none) :
    (record (merge vmi (statePatch fields)))[name] = (record vmi)[name] := by
  rw [record_statePatch, merge_index_of_absent _ absent]

theorem movePatch_status (vmi : Value) (target : String) :
    (merge vmi (movePatch vmi target))["status"] =
      merge vmi["status"] (.object [("nodeName", .string target)]) := by
  refine merge_index vmi ?_ rfl rfl
  split_ifs <;> simp

theorem record_movePatch (target : String) :
    record (merge vmi (movePatch vmi target)) = record vmi := by
  rw [record, movePatch_status, merge_index_of_absent _ rfl]
  rfl

theorem nodeOf_movePatch (target : String) :
    nodeOf (merge vmi (movePatch vmi target)) = some target := by
  rw [nodeOf, movePatch_status, merge_index _ (by simp) rfl rfl, merge_string]
  rfl

theorem hasFailed_failOnVmi (why : String) (now : Int) (abort : Bool) :
    hasFailed (merge vmi (failOnVmi texts why now abort)) = true := by
  unfold hasFailed failOnVmi
  rw [record_statePatch]
  cases abort <;> rw [merge_index _ (by simp) rfl rfl] <;> simp [merge, Value.asBool?]

/-- What keeps the record and the node of a machine that is where its migration took it. -/
structure Preserves (before after : Value) : Prop where
  recorded : recordedUid after = recordedUid before
  settled : ∀ uid target, Settles before uid target → nodeOf before = some target →
    Settles after uid target ∧ nodeOf after = some target

theorem Reports.preserves {object : Value} (reports : Reports stored object) :
    Preserves stored object := by
  have ⟨uid, completed, node⟩ := reports
  refine ⟨uid, fun migration target settles isNode => ?_⟩
  have ⟨still, same⟩ := completed settles.completed
  exact ⟨⟨uid.trans settles.recorded, still, same.trans settles.target⟩,
    (node (by simp [isNode])).trans isNode⟩

theorem preserves_statePatch (uid : fields.lookup "migrationUid" = none)
    (completed : fields.lookup "completed" = none) (target : fields.lookup "targetNode" = none) :
    Preserves vmi (merge vmi (statePatch fields)) := by
  have sameUid : recordedUid (merge vmi (statePatch fields)) = recordedUid vmi := by
    simp only [recordedUid, statePatch_of_absent uid]
  refine ⟨sameUid, fun migration node settles isNode =>
    ⟨⟨sameUid.trans settles.recorded, ?_, ?_⟩, ?_⟩⟩
  · rw [← settles.completed]
    simp only [isCompleted, statePatch_of_absent completed]
  · rw [← settles.target]
    simp only [targetOf, statePatch_of_absent target]
  · rw [nodeOf_statePatch, isNode]

theorem settles_movePatch {uid target : String} (settles : Settles vmi uid target) (node : String) :
    Settles (merge vmi (movePatch vmi node)) uid target := by
  have same : record (merge vmi (movePatch vmi node)) = record vmi := record_movePatch node
  refine ⟨?_, ?_, ?_⟩
  · rw [recordedUid, same]
    exact settles.recorded
  · rw [isCompleted, same]
    exact settles.completed
  · rw [targetOf, same]
    exact settles.target

theorem Writes.effect {patch : Value} (writes : Writes migration vmi patch) :
    Preserves vmi (merge vmi patch) ∨
      (¬ isDeleting migration = true ∧ (phaseOf migration = "" ∨ phaseOf migration = "Pending") ∧
        activeMigration vmi = none ∧ ∀ uid, recordedUid (merge vmi patch) = some uid →
          uid = uidOf migration) := by
  cases writes with
  | start source waiting early free =>
    refine .inr ⟨waiting, early, free, fun uid recorded => ?_⟩
    rw [recordedUid, startPatch, record_statePatch, merge_index _ (by simp) rfl rfl,
      merge_string] at recorded
    exact (Option.some.inj (Option.filter_eq_some_iff.mp recorded).1).symm
  | state fields uid completed target => exact .inl (preserves_statePatch uid completed target)
  | move target settles =>
    refine .inl ⟨by simp only [recordedUid, record_movePatch], fun other node known _ => ?_⟩
    cases settles.target.symm.trans known.target
    exact ⟨settles_movePatch known target, nodeOf_movePatch target⟩

theorem phaseOf_status {seen : Option Value} {plan : Plan} {now : Int}
    (isStatus : desiredStatus texts migration seen plan now = some status) :
    phaseOf (merge stored (.object [("status", status)])) = plan.phase.text := by
  obtain rfl : newStatus texts migration seen plan now = status := by
    unfold desiredStatus at isStatus
    dsimp only at isStatus
    split at isStatus
    · cases isStatus
    · exact Option.some.inj isStatus
  rw [phaseOf, merge_index stored (by simp) rfl rfl]
  unfold newStatus
  dsimp only
  split_ifs
  all_goals
    rw [merge_index _ (by simp) rfl rfl, merge_string]
    rfl

theorem status_setFinalizers (kept : List Value) :
    (setFinalizers migration kept)["status"] = migration["status"] :=
  merge_index_of_absent _ rfl

theorem finalizers_setFinalizers (kept : List Value) :
    finalizers (setFinalizers migration kept) = kept := by
  rw [finalizers, setFinalizers, merge_index migration (by simp) rfl rfl, merge_index _
    (by simp) rfl rfl]
  simp [merge, Value.asArray?]

theorem hasFinalizer_status :
    hasFinalizer (merge migration (.object [("status", status)])) = hasFinalizer migration := by
  have kept : (merge migration (.object [("status", status)]))["metadata"] =
      migration["metadata"] :=
    merge_index_of_absent _ rfl
  rw [hasFinalizer, finalizers, kept]
  rfl

end Rustkube.VmiMigration
