import Rustkube.Cron
import Rustkube.Job
import Rustkube.Lib.Versions

/- A CronJob's pass, call by call: a Job is made for the start that is owed, then the start is
recorded. -/
namespace Rustkube.CronJob

open Json Controllers Rollout Job Cron

variable (texts : TimeText) (cj : Value) (jobs : List Value)

def lastSchedule : Option Int := cj["status"]["lastScheduleTime"].asStr?.bind texts.parse

def created (now : Int) : Int :=
  (cj["metadata"]["creationTimestamp"].asStr?.bind texts.parse).getD now

def owned : List Value := jobs.filter (ownedBy · (uidOf cj))

def successful : List Value := (owned cj jobs).filter (isMarked · "Complete")

def failed : List Value :=
  (owned cj jobs).filter fun job => !isMarked job "Complete" && isMarked job "Failed"

def active : List Value :=
  (owned cj jobs).filter fun job => !isMarked job "Complete" && !isMarked job "Failed"

/-- The start that is owed now. -/
def due (now : Int) : Except Cron.MissedError (Option Int) :=
  Cron.startToRun (textOf cj["spec"]["schedule"]) (lastSchedule texts cj) (created texts cj now) now
    cj["spec"]["startingDeadlineSeconds"].asI64?

def createdAt (job : Value) : String := textOf job["metadata"]["creationTimestamp"]

/-- How many leave the history. -/
def excess (jobs : List Value) (limit : Nat) : Nat := jobs.length - limit

/-- The oldest go. -/
def cleanupHistory (jobs : List Value) (limit : Nat) : List Value :=
  ((jobs.insertionSort fun left right => createdAt left ≤ createdAt right).take
    (excess jobs limit)).filter (nameOf · ≠ "")

def successfulLimit : Nat := (count? cj["spec"]["successfulJobsHistoryLimit"]).getD 3

def failedLimit : Nat := (count? cj["spec"]["failedJobsHistoryLimit"]).getD 1

def pruned : List Value :=
  cleanupHistory (successful cj jobs) (successfulLimit cj) ++
    cleanupHistory (failed cj jobs) (failedLimit cj)

/-- What `write_stats` counts: the Jobs that are kept and those that ever left. -/
def stats (latest : Value) : Fields :=
  let prior := latest["status"]["storm.io/stats"]
  let prunedOk := excess (successful cj jobs) (successfulLimit cj)
  let prunedBad := excess (failed cj jobs) (failedLimit cj)
  let everOk := (count? prior["prunedSucceeded"]).getD 0 + prunedOk
  let everBad := (count? prior["prunedFailed"]).getD 0 + prunedBad
  [("storm.io/stats", .object [
    ("succeeded", .number ((successful cj jobs).length - prunedOk + everOk : Nat)),
    ("failed", .number ((failed cj jobs).length - prunedBad + everBad : Nat)),
    ("active", .number (active cj jobs).length), ("prunedSucceeded", .number everOk),
    ("prunedFailed", .number everBad)])]

def latestText (texts : List String) : Option String :=
  texts.foldl (fun best text => match best with
    | some other => if other ≤ text then some text else some other
    | none => some text) none

def activeRef (cj job : Value) : Option Value := do
  let name ← job["metadata"]["name"].asStr?
  let uid ← job["metadata"]["uid"].asStr?
  some (.object
    [("apiVersion", .string "batch/v1"), ("kind", .string "Job"), ("name", .string name),
    ("namespace", .string (namespaceName cj)), ("uid", .string uid)])

/-- Named by the wall clock, in seconds. -/
def jobName (cj : Value) (clock : Int) : String :=
  nameOf cj ++ "-" ++ toString (clock / Cron.second)

def buildJob (cj : Value) (clock : Int) : Value :=
  let template := cj["spec"]["jobTemplate"]
  .object [("apiVersion", .string "batch/v1"), ("kind", .string "Job"),
    ("metadata", .object
      [("name", .string (jobName cj clock)), ("namespace", .string (namespaceName cj)),
      ("labels", template["metadata"]["labels"]),
      ("ownerReferences", .array [.object [("apiVersion", .string "batch/v1"),
        ("kind", .string "CronJob"), ("name", .string (nameOf cj)), ("uid", .string (uidOf cj)),
        ("controller", .bool true), ("blockOwnerDeletion", .bool true)]])]),
    ("spec", template["spec"])]

/-- `updated["status"][name] = value`, field by field. A status that takes no field panics. -/
def withStatus (cj : Value) (fields : Fields) : Option Value := do
  let status ← fields.foldlM (fun status field => status.assign field.1 field.2) cj["status"]
  cj.assign "status" status

/-- Where a pass is: it deletes the running Jobs, makes one, records the start, trims the history,
and writes its counters. -/
inductive Stage where
  | replace (jobs : List Value) (start : Int)
  | create (start : Int)
  | mark (time : Int) (fields : Fields)
  | prune (jobs : List Value)
  | stats

/-- A pass: the CronJob and the Jobs it read, the CronJob as it last wrote it, and what is owed. -/
structure Pass where
  cronjob : Value
  jobs : List Value
  latest : Version Value
  due : Except Cron.MissedError (Option Int)
  stage : Stage

def replacing (running : List Value) (start : Int) : Stage :=
  if running.isEmpty then .create start else .replace running start

/-- The scheduled time is recorded, not the wall clock's. -/
def marking (start : Int) : Stage :=
  .mark start ([("lastScheduleTime", .string (texts.format start)),
    ("active", .array ((active cj jobs).filterMap (activeRef cj)))] ++
    ((latestText ((successful cj jobs).filterMap (·["status"]["completionTime"].asStr?))).map
      fun text => ("lastSuccessfulTime", Value.string text)).toList)

def pruning (history : List Value) : Stage := if history.isEmpty then .stats else .prune history

/-- A start that `Forbid` passes over. -/
def forbids (start : Except Cron.MissedError (Option Int)) : Option Int :=
  match start with
  | .ok (some start) =>
    if cj["spec"]["concurrencyPolicy"].asStr?.getD "Allow" = "Forbid" ∧
        !(active cj jobs).isEmpty then
      some start
    else none
  | _ => none

/-- Where catching up is refused, the marker moves to now. -/
def firstStage (now : Int) (due : Except Cron.MissedError (Option Int)) : Stage :=
  match due with
  | .error _ => .mark now [("lastScheduleTime", .string (texts.format now))]
  | .ok none => pruning (pruned cj jobs)
  | .ok (some start) =>
    if (forbids cj jobs due).isSome then marking texts cj jobs start
    else if cj["spec"]["concurrencyPolicy"].asStr?.getD "Allow" = "Replace" then
      replacing ((active cj jobs).filter (nameOf · ≠ "")) start
    else .create start

/-- `reconcile_cronjob`, up to its first call. A CronJob that is suspended is left. -/
def reconcileCronjob (stored : Version Value) (now : Int) : Except String (Option Pass) :=
  let cj := stored.object
  if cj["metadata"]["name"].asStr?.isNone then .error "cronjob missing name"
  else if cj["spec"]["schedule"].asStr?.isNone then .error "cronjob missing schedule"
  else if cj["spec"]["suspend"].asBool?.getD false then .ok none
  else .ok (some ⟨cj, jobs, stored, due texts cj now, firstStage texts cj jobs now
    (due texts cj now)⟩)

/-- The CronJob, its Jobs and its pass; with the Jobs ever made, each with the start it was made
for, and the starts that `Forbid` passed over. -/
structure State where
  cronjob : Version Value
  jobs : List Value
  pass : Option Pass
  made : List (Int × String)
  skipped : List Int

inductive Action where
  /-- a pass, from the stored CronJob and what it sees of the Jobs -/
  | start (jobs : List Value) (now : Int)
  | call (outcome : Outcome) (clock : Int)
  /-- the pass is cut off -/
  | stop
  /-- somebody else writes the CronJob -/
  | touch (object : Value)
  /-- Jobs run, end and are deleted -/
  | change (jobs : List Value)

/-- A status write lands where its version is the one that is stored. -/
def lands (state : State) (pass : Pass) (outcome : Outcome) : Bool :=
  outcome ≠ .failed ∧ state.cronjob.number = pass.latest.number

def gone (jobs : List Value) (job : Value) (outcome : Outcome) : List Value :=
  if outcome = .failed then jobs else jobs.filter (nameOf · ≠ nameOf job)

/-- The next call of a pass. What comes of a create is only logged. -/
def call (state : State) (pass : Pass) (outcome : Outcome) (clock : Int) : State :=
  match pass.stage with
  | .replace (job :: rest) start => { state with
      jobs := gone state.jobs job outcome
      pass := some { pass with stage := replacing rest start } }
  | .replace [] start => { state with pass := some { pass with stage := .create start } }
  | .create start =>
    let name := jobName pass.cronjob clock
    let lands := outcome ≠ .failed ∧ name ∉ state.jobs.map nameOf
    { state with
      jobs := if lands then state.jobs ++ [buildJob pass.cronjob clock] else state.jobs
      made := if lands then state.made ++ [(start, name)] else state.made
      pass := some { pass with stage := marking texts pass.cronjob pass.jobs start } }
  | .mark _ fields =>
    let next := pruning (pruned pass.cronjob pass.jobs)
    match withStatus pass.latest.object fields with
    | none => { state with pass := none }
    | some body =>
      let stored : Version Value := ⟨state.cronjob.number + 1, body⟩
      if lands state pass outcome then { state with
        cronjob := stored
        pass := some { pass with
          latest := if outcome = .served then stored else pass.latest
          stage := next } }
      else { state with pass := some { pass with stage := next } }
  | .prune (job :: rest) => { state with
      jobs := gone state.jobs job outcome
      pass := some { pass with stage := pruning rest } }
  | .prune [] => { state with pass := some { pass with stage := .stats } }
  | .stats =>
    match withStatus pass.latest.object (stats pass.cronjob pass.jobs pass.latest.object) with
    | some body => { state with
        cronjob := if lands state pass outcome then ⟨state.cronjob.number + 1, body⟩
          else state.cronjob
        pass := none }
    | none => { state with pass := none }

def step (state : State) : Action → Option State
  | .start jobs now =>
    match state.pass, reconcileCronjob texts jobs state.cronjob now with
    | none, .ok (some pass) => some { state with
        pass := some pass
        skipped := (forbids pass.cronjob jobs pass.due).toList ++ state.skipped }
    | none, _ => some state
    | some _, _ => none
  | .call outcome clock => state.pass.map fun pass => call texts state pass outcome clock
  | .stop => some { state with pass := none }
  | .touch object => some { state with cronjob := ⟨state.cronjob.number + 1, object⟩ }
  | .change jobs => some { state with jobs }

/-- Clocks show a time there is a timestamp for, and others leave the marker alone. -/
def Permitted (state : State) : Action → Prop
  | .start _ now => Cron.maxLookback ≤ now ∧ now < endOfTime
  | .touch object =>
    object["status"]["lastScheduleTime"] = state.cronjob.object["status"]["lastScheduleTime"]
  | _ => True

instance (state : State) (action : Action) : Decidable (Permitted state action) :=
  match action with
  | .start _ _ => inferInstanceAs (Decidable (_ ∧ _))
  | .touch _ => inferInstanceAs (Decidable (_ = _))
  | .call _ _ | .stop | .change _ => inferInstanceAs (Decidable True)

/- A CronJob's starts: one Job for each, and the marker moves past none that is not accounted
for. -/

open List Option Transition Value

section

variable {cj after status : Value} {fields : Fields} {name : String}

theorem assignAll_of_not_mem
    (written : fields.foldlM (fun status field => status.assign field.1 field.2) cj = some after)
    (absent : name ∉ fields.map Prod.fst) : after[name] = cj[name] := by
  induction fields generalizing cj with
  | nil =>
    obtain rfl : cj = after := by simpa using written
    rfl
  | cons field rest ih =>
    have ⟨between, first, others⟩ := bind_eq_some_iff.mp written
    simp only [map_cons, mem_cons, not_or] at absent
    rw [ih others absent.2, assign_of_ne first absent.1]

end

section

variable (state : State) (pass : Pass)

/-- The starts that Jobs were made for. -/
def starts : List Int := state.made.map Prod.fst

/-- The pass has made a Job for a start and not recorded it. -/
def unrecorded : Bool :=
  match pass.stage, pass.due with
  | .mark start _, .ok (some _) => start ∈ starts state
  | _, _ => false

/-- A Job that is asked for is made, and then its start is recorded. -/
def answered (outcome : Outcome) (clock : Int) : Bool :=
  match pass.stage with
  | .create _ => outcome = .served ∧ jobName pass.cronjob clock ∉ state.jobs.map nameOf
  | .mark _ fields =>
    !unrecorded state pass || lands state pass outcome &&
      (withStatus pass.latest.object fields).isSome
  | _ => true

def Answered : Action → Prop
  | .call outcome clock => state.pass.all (answered state · outcome clock) = true
  | .stop => state.pass.all (!unrecorded state ·) = true
  | _ => True

instance (action : Action) : Decidable (Answered state action) :=
  match action with
  | .call _ _ | .stop => inferInstanceAs (Decidable (_ = true))
  | .start _ _ | .touch _ | .change _ => inferInstanceAs (Decidable True)

/-- The start is not run: a later one is, or catching up was refused. -/
def GivenUp (due : Except Cron.MissedError (Option Int)) (start : Int) : Prop :=
  match due with
  | .error _ => True
  | .ok (some later) => start < later
  | .ok none => False

instance (due : Except Cron.MissedError (Option Int)) (start : Int) :
    Decidable (GivenUp due start) :=
  match due with
  | .error _ => inferInstanceAs (Decidable True)
  | .ok (some _) => inferInstanceAs (Decidable (_ < _))
  | .ok none => inferInstanceAs (Decidable False)

end

section

variable (texts : TimeText)

def marker (state : State) : Option Int := lastSchedule texts state.cronjob.object

/-- A start the marker has not reached. -/
structure Ready (state : State) (start : Int) : Prop where
  after : ∀ time ∈ marker texts state, time < start
  whole : Cron.floor Cron.second start = start
  writable : 0 ≤ start ∧ start < endOfTime

/-- A status write that moves the marker to a time. -/
structure Marks (time : Int) (fields : Fields) : Prop where
  writable : 0 ≤ time ∧ time < endOfTime
  shape : ∃ rest, fields = ("lastScheduleTime", .string (texts.format time)) :: rest ∧
    "lastScheduleTime" ∉ rest.map Prod.fst

def AtStage (state : State) (due : Except Cron.MissedError (Option Int)) : Stage → Prop
  | .replace _ start | .create start => due = .ok (some start) ∧ Ready texts state start
  | .mark time fields => Marks texts time fields ∧
      (∀ earlier ∈ marker texts state, earlier ≤ Cron.floor Cron.second time) ∧ due ≠ .ok none ∧
      ∀ start, due = .ok (some start) →
        start = time ∧ Ready texts state start ∧ (start ∈ starts state ∨ start ∈ state.skipped)
  | .prune _ | .stats => True

structure PassHolds (state : State) (pass : Pass) : Prop where
  older : pass.latest.number ≤ state.cronjob.number
  same : pass.latest.number = state.cronjob.number → pass.latest = state.cronjob
  stage : AtStage texts state pass.due pass.stage

/-- Every start that a Job was made for is recorded, or the pass that made it is about to. -/
structure Invariant (state : State) : Prop where
  distinct : (starts state).Nodup
  recorded : ∀ start ∈ starts state, (∃ time ∈ marker texts state, start ≤ time) ∨
    ∃ pass ∈ state.pass, pass.due = .ok (some start) ∧ ∃ fields, pass.stage = .mark start fields
  pass : ∀ pass ∈ state.pass, PassHolds texts state pass

end

section

variable {texts : TimeText} {state after : State} {pass : Pass} {action : Action}
  {outcome : Outcome}
  {clock time : Int} {fields : Fields} {due : Except Cron.MissedError (Option Int)} {body : Value}

theorem Marks.lastSchedule (marks : Marks texts time fields) {cj : Value}
    (written : withStatus cj fields = some body) :
    lastSchedule texts body = some (floor second time) := by
  obtain ⟨rest, rfl, once⟩ := marks.shape
  have ⟨status, assigned, stored⟩ := bind_eq_some_iff.mp written
  have ⟨between, first, others⟩ := bind_eq_some_iff.mp assigned
  rw [lastSchedule, assign_self stored, assignAll_of_not_mem others once,
    assign_self first]
  exact texts.roundTrip time marks.writable.1 marks.writable.2

variable {start now : Int} {made : List (Int × String)} {running : Option Pass} {skipped : List Int}
  {jobs : List Value}

theorem marks_marking (cj : Value) (jobs : List Value)
    (writable : 0 ≤ start ∧ start < endOfTime)
    (marked : marking texts cj jobs start = .mark time fields) :
    time = start ∧ Marks texts time fields := by
  obtain ⟨rfl, rfl⟩ := Stage.mark.inj marked
  refine ⟨rfl, writable, _, rfl, ?_⟩
  intro member
  rcases mem_cons.mp member with other | member
  · exact absurd (show "lastScheduleTime" = "active" from other) (by decide)
  · have ⟨field, found, isName⟩ := mem_map.mp member
    obtain ⟨text, -, rfl⟩ := map_eq_some_iff.mp (mem_toList.mp found)
    exact absurd (show "lastSuccessfulTime" = "lastScheduleTime" from isName) (by decide)

theorem atStage_pruning (history : List Value) : AtStage texts state due (pruning history) := by
  unfold pruning
  split_ifs <;> exact trivial

theorem atStage_replacing {running : List Value} (isDue : due = .ok (some start))
    (ready : Ready texts state start) : AtStage texts state due (replacing running start) := by
  unfold replacing
  split_ifs <;> exact ⟨isDue, ready⟩

theorem atStage_marking (cj : Value) (jobs : List Value) (isDue : due = .ok (some start))
    (ready : Ready texts state start) (known : start ∈ starts state ∨ start ∈ state.skipped) :
    AtStage texts state due (marking texts cj jobs start) := by
  subst isDue
  refine ⟨(marks_marking cj jobs ready.writable rfl).2, fun earlier found => ?_, nofun, ?_⟩
  · have before := ready.after earlier found
    have whole := ready.whole
    omega
  · intro other same
    cases Except.ok.inj same
    exact ⟨rfl, ready, known⟩

theorem AtStage.mono {stage : Stage} (holds : AtStage texts state due stage)
    (unmoved : marker texts after = marker texts state)
    (made : ∀ start ∈ starts state, start ∈ starts after)
    (skipped : ∀ start ∈ state.skipped, start ∈ after.skipped) : AtStage texts after due stage := by
  have readies : ∀ start, Ready texts state start → Ready texts after start :=
    fun start ready => ⟨unmoved ▸ ready.after, ready.whole, ready.writable⟩
  cases stage with
  | replace _ start => exact ⟨holds.1, readies start holds.2⟩
  | create start => exact ⟨holds.1, readies start holds.2⟩
  | mark time fields =>
    obtain ⟨marks, earlier, some, known⟩ := holds
    refine ⟨marks, unmoved ▸ earlier, some, fun start isDue => ?_⟩
    have ⟨same, ready, accounted⟩ := known start isDue
    exact ⟨same, readies start ready, accounted.imp (made start) (skipped start)⟩
  | prune | stats => trivial

theorem due_ready (bounds : maxLookback ≤ now ∧ now < endOfTime)
    (owed : CronJob.due texts state.cronjob.object now = .ok (some start)) :
    Ready texts state start := by
  have owes := startToRun_owed owed
  have ⟨_, afterwards, past, whole, recent⟩ := owes
  have coarse := floor_minute_le start
  have fine := floor_le second_pos start
  refine ⟨fun earlier found => ?_, by omega, by omega, by omega⟩
  rw [show lastSchedule texts state.cronjob.object = some earlier from found] at afterwards
  exact afterwards

theorem atStage_firstStage (jobs : List Value) (bounds : maxLookback ≤ now ∧ now < endOfTime)
    (isDue : CronJob.due texts state.cronjob.object now = due)
    (skipped : ∀ start ∈ forbids state.cronjob.object jobs due, start ∈ state.skipped) :
    AtStage texts state due (firstStage texts state.cronjob.object jobs now due) := by
  match due with
  | .error error =>
    have positive : 0 ≤ maxLookback := by decide
    refine ⟨⟨⟨by omega, bounds.2⟩, [], rfl, nofun⟩, fun earlier found => ?_, nofun, nofun⟩
    have past := startToRun_error isDue
    rwa [show lastSchedule texts state.cronjob.object = some earlier from found] at past
  | .ok none => exact atStage_pruning _
  | .ok (some start) =>
    have ready := due_ready bounds isDue
    unfold firstStage
    split_ifs with forbidden replaces
    · have ⟨other, isOther⟩ := isSome_iff_exists.mp forbidden
      obtain rfl : start = other := by
        unfold forbids at isOther
        split_ifs at isOther
        exact some.inj isOther
      exact atStage_marking _ _ rfl ready (.inr (skipped start isOther))
    · exact atStage_replacing rfl ready
    · exact ⟨rfl, ready⟩

section

variable (inv : Invariant texts state)

include inv

theorem Invariant.passed (settled : state.pass.all (!unrecorded state ·) = true) :
    ∀ start ∈ starts state, ∃ time ∈ marker texts state, start ≤ time := by
  intro start made
  rcases inv.recorded start made with passed | ⟨pass, running, isDue, fields, isMark⟩
  · exact passed
  · have quiet := (all_eq_true _ _).mp settled pass running
    simp [unrecorded, isMark, isDue, made] at quiet

theorem Invariant.passed_of_stage (running : state.pass = some pass)
    (other : ∀ time fields, pass.stage ≠ .mark time fields) :
    ∀ start ∈ starts state, ∃ time ∈ marker texts state, start ≤ time := by
  intro start made
  rcases inv.recorded start made with passed | ⟨found, isRunning, -, fields, isMark⟩
  · exact passed
  · cases running.symm.trans isRunning
    exact absurd isMark (other start fields)

theorem Invariant.settle (made : after.made = state.made)
    (passed : ∀ start ∈ starts state, ∃ time ∈ marker texts after, start ≤ time)
    (holds : ∀ pass ∈ after.pass, PassHolds texts after pass) : Invariant texts after := by
  have same : starts after = starts state := congrArg (map Prod.fst) made
  exact ⟨same ▸ inv.distinct, fun start found => .inl (passed start (same ▸ found)), holds⟩

theorem Invariant.frame (unmoved : marker texts after = marker texts state)
    (made : after.made = state.made) (skipped : after.skipped = state.skipped)
    (running : after.pass = state.pass)
    (newer : after.cronjob = state.cronjob ∨ state.cronjob.number < after.cronjob.number) :
    Invariant texts after := by
  have same : starts after = starts state := congrArg (map Prod.fst) made
  refine ⟨same ▸ inv.distinct, ?_, fun pass found => ?_⟩
  · rw [same, unmoved, running]
    exact inv.recorded
  · have holds := inv.pass pass (running ▸ found)
    have stage : AtStage texts after pass.due pass.stage :=
      holds.stage.mono unmoved (fun _ => same ▸ id) (fun _ => skipped ▸ id)
    rcases newer with kept | newer
    · exact ⟨kept ▸ holds.older, kept ▸ holds.same, stage⟩
    · have older := holds.older
      exact ⟨by omega, fun equal => by omega, stage⟩

end

theorem PassHolds.stage_of {next : Stage} (holds : PassHolds texts state pass)
    (kept : after.cronjob = state.cronjob) (stage : AtStage texts after pass.due next) :
    PassHolds texts after { pass with stage := next } :=
  ⟨kept ▸ holds.older, kept ▸ holds.same, stage⟩

theorem forall_mem_some {α : Type} {p : α → Prop} {value : α} (holds : p value) :
    ∀ other ∈ some value, p other := by
  rintro other ⟨⟩
  exact holds

theorem stats_unmoved (holds : PassHolds texts state pass)
    (current : state.cronjob.number = pass.latest.number)
    (written : withStatus pass.latest.object (stats pass.cronjob pass.jobs pass.latest.object) =
      some body) :
    lastSchedule texts body = marker texts state := by
  have absent :
      "lastScheduleTime" ∉ (stats pass.cronjob pass.jobs pass.latest.object).map Prod.fst := by
    simp [stats]
  have ⟨status, assigned, stored⟩ := bind_eq_some_iff.mp written
  rw [lastSchedule, assign_self stored, assignAll_of_not_mem assigned absent,
    holds.same current.symm]
  rfl

theorem touch_unmoved {object : Value} {number : Nat}
    (permitted : Permitted state (.touch object)) :
    marker texts ⟨⟨number, object⟩, jobs, running, made, skipped⟩ = marker texts state :=
  congrArg (fun value : Value => value.asStr?.bind texts.parse) permitted

theorem step_marker (inv : Invariant texts state) (permitted : Permitted state action)
    (taken : step texts state action = some after) :
    marker texts after = marker texts state ∨
      ∃ pass ∈ state.pass, ∃ time fields, pass.stage = .mark time fields ∧
        marker texts after = some (floor second time) := by
  cases action with
  | start jobs now =>
    simp only [step] at taken
    split at taken
    · cases taken
      exact .inl rfl
    · cases taken
      exact .inl rfl
    · cases taken
  | call outcome clock =>
    obtain ⟨pass, running, rfl⟩ := map_eq_some_iff.mp taken
    have holds := inv.pass pass running
    unfold call
    split
    · exact .inl rfl
    · exact .inl rfl
    · exact .inl rfl
    · next time fields isMark =>
      have marks : Marks texts time fields :=
        (isMark ▸ holds.stage : AtStage _ _ _ (.mark time fields)).1
      split
      · exact .inl rfl
      · next body written =>
        split
        · exact .inr ⟨pass, running, time, fields, isMark, marks.lastSchedule written⟩
        · exact .inl rfl
    · exact .inl rfl
    · exact .inl rfl
    · split
      · next body written =>
        split_ifs with landed
        · exact .inl (stats_unmoved holds (of_decide_eq_true landed).2 written)
        · exact .inl rfl
      · exact .inl rfl
  | touch object =>
    cases taken
    exact .inl (touch_unmoved permitted)
  | stop | change =>
    cases taken
    exact .inl rfl

/-- After a write that landed, the pass goes on from it, or, its answer lost, from what it had. -/
theorem PassHolds.written {history : List Value} (holds : PassHolds texts state pass)
    (current : state.cronjob.number = pass.latest.number) :
    PassHolds texts ⟨⟨state.cronjob.number + 1, body⟩, jobs, running, made, skipped⟩
      { pass with
        latest := if outcome = .served then ⟨state.cronjob.number + 1, body⟩ else pass.latest
        stage := pruning history } := by
  by_cases answered : outcome = .served
  · simp only [if_pos answered]
    exact ⟨le_rfl, fun _ => rfl, atStage_pruning _⟩
  · simp only [if_neg answered]
    have older := holds.older
    refine ⟨Nat.le_succ_of_le older, fun equal => ?_, atStage_pruning _⟩
    dsimp only at equal
    omega

variable (inv : Invariant texts state)

include inv

section

variable (runs : state.pass = some pass) (served : answered state pass outcome clock = true)

include runs served

theorem call_create (creates : pass.stage = .create start) :
    Invariant texts (call texts state pass outcome clock) := by
  have holds := inv.pass pass runs
  obtain ⟨isDue, ready⟩ : pass.due = .ok (some start) ∧ Ready texts state start :=
    (creates ▸ holds.stage : AtStage texts state pass.due (.create start))
  have passed := inv.passed_of_stage runs fun _ _ => creates ▸ nofun
  have landed : outcome ≠ .failed ∧ jobName pass.cronjob clock ∉ state.jobs.map nameOf := by
    simp only [answered, creates, decide_eq_true_eq] at served
    exact ⟨fun failed => absurd (failed ▸ served.1) (by decide), served.2⟩
  have new : start ∉ starts state := by
    intro made
    have ⟨time, found, reached⟩ := passed start made
    have before := ready.after time found
    omega
  simp only [call, creates, if_pos landed]
  refine ⟨?_, ?_, forall_mem_some (holds.stage_of rfl ?_)⟩
  · simpa [starts] using List.Nodup.concat new inv.distinct
  · intro other made
    simp only [starts, map_append, map_cons, map_nil, mem_append, mem_singleton] at made
    rcases made with made | rfl
    · exact .inl (passed other made)
    · exact .inr ⟨_, rfl, isDue, _, rfl⟩
  · exact atStage_marking _ _ isDue { ready with } (.inl (by simp [starts]))

theorem call_mark (isMark : pass.stage = .mark time fields) :
    Invariant texts (call texts state pass outcome clock) := by
  have holds := inv.pass pass runs
  obtain ⟨marks, earlier, -, known⟩ : AtStage texts state pass.due (.mark time fields) :=
    isMark ▸ holds.stage
  -- A write that does not land has no Job to record.
  have quiet : unrecorded state pass = false →
      ∀ start ∈ starts state, ∃ time ∈ marker texts state, start ≤ time := by
    intro settled
    exact inv.passed (by simp [runs, settled])
  simp only [answered, isMark, Bool.or_eq_true, Bool.not_eq_true', Bool.and_eq_true] at served
  simp only [call, isMark]
  split
  · next panics =>
    have settled := served.resolve_right fun both => by simp [panics] at both
    exact inv.settle rfl (quiet settled) nofun
  · next body written =>
    split
    · next landed =>
      have number := (of_decide_eq_true landed).2
      have moved := marks.lastSchedule written
      refine inv.settle rfl (fun start made => ⟨_, moved, ?_⟩)
        (forall_mem_some (holds.written number))
      rcases inv.recorded start made with ⟨old, found, reached⟩ | ⟨other, isRunning, isDue, _, -⟩
      · have := earlier old found
        omega
      · cases runs.symm.trans isRunning
        obtain ⟨rfl, ready, -⟩ := known start isDue
        exact ready.whole.ge
    · next refused =>
      have settled := served.resolve_right fun both => refused both.1
      exact inv.settle rfl (quiet settled)
        (forall_mem_some (holds.stage_of rfl (atStage_pruning _)))

theorem call_invariant : Invariant texts (call texts state pass outcome clock) := by
  have holds := inv.pass pass runs
  cases isStage : pass.stage with
  | replace jobs start =>
    obtain ⟨isDue, ready⟩ : pass.due = .ok (some start) ∧ Ready texts state start :=
      (isStage ▸ holds.stage : AtStage texts state pass.due (.replace jobs start))
    have passed := inv.passed_of_stage runs fun _ _ => isStage ▸ nofun
    cases jobs with
    | nil =>
      simp only [call, isStage]
      exact inv.settle rfl passed (forall_mem_some (holds.stage_of rfl
        ⟨isDue, ready.after, ready.whole, ready.writable⟩))
    | cons job rest =>
      simp only [call, isStage]
      exact inv.settle rfl passed (forall_mem_some (holds.stage_of rfl
        (atStage_replacing isDue { ready with })))
  | create start => exact call_create inv runs served isStage
  | mark time fields => exact call_mark inv runs served isStage
  | prune jobs =>
    have passed := inv.passed_of_stage runs fun _ _ => isStage ▸ nofun
    cases jobs with
    | nil =>
      simp only [call, isStage]
      exact inv.settle rfl passed (forall_mem_some (holds.stage_of rfl trivial))
    | cons job rest =>
      simp only [call, isStage]
      exact inv.settle rfl passed (forall_mem_some (holds.stage_of rfl (atStage_pruning rest)))
  | stats =>
    have passed := inv.passed_of_stage runs fun _ _ => isStage ▸ nofun
    simp only [call, isStage]
    split
    · next body written =>
      refine inv.settle rfl (fun start made => ?_) nofun
      have ⟨time, found, reached⟩ := passed start made
      refine ⟨time, ?_, reached⟩
      split_ifs with landed
      · exact (stats_unmoved holds (of_decide_eq_true landed).2 written).trans found
      · exact found
    · exact inv.settle rfl passed nofun

end

theorem step_invariant (permitted : Permitted state action) (served : Answered state action)
    (taken : step texts state action = some after) : Invariant texts after := by
  cases action with
  | start jobs now =>
    simp only [step] at taken
    split at taken
    · next pass idle begun =>
      cases taken
      have passed := inv.passed (by simp [idle])
      unfold reconcileCronjob at begun
      dsimp only at begun
      split_ifs at begun
      · cases begun
      cases Except.ok.inj begun
      refine inv.settle rfl passed (forall_mem_some ⟨le_rfl, fun _ => rfl, ?_⟩)
      refine atStage_firstStage jobs permitted rfl fun start forbidden => ?_
      exact mem_append_left _ (mem_toList.mpr forbidden)
    · cases taken
      exact inv
    · cases taken
  | call outcome clock =>
    obtain ⟨pass, running, rfl⟩ := map_eq_some_iff.mp taken
    exact call_invariant inv running ((all_eq_true _ _).mp served pass running)
  | stop =>
    cases taken
    exact inv.settle rfl (inv.passed served) nofun
  | touch object =>
    cases taken
    exact inv.frame (touch_unmoved permitted) rfl rfl rfl (.inr (Nat.lt_succ_self _))
  | change jobs =>
    cases taken
    exact inv.frame rfl rfl rfl rfl (.inl rfl)

theorem step_accounts (permitted : Permitted state action)
    (taken : step texts state action = some after) {reached : Int}
    (ahead : ∀ time ∈ marker texts state, time < start) (passed : reached ∈ marker texts after)
    (past : start ≤ reached) :
    start ∈ starts state ∨ start ∈ state.skipped ∨ ∃ pass ∈ state.pass, GivenUp pass.due start := by
  rcases step_marker inv permitted taken with unmoved | ⟨pass, running, time, fields, isMark, moved⟩
  · have before := ahead reached (unmoved ▸ passed)
    omega
  · obtain ⟨-, -, some, known⟩ : AtStage texts state pass.due (.mark time fields) :=
      isMark ▸ (inv.pass pass running).stage
    cases moved.symm.trans passed
    match isDue : pass.due with
    | .error _ => exact .inr (.inr ⟨pass, running, by rw [isDue]; trivial⟩)
    | .ok none => exact absurd isDue some
    | .ok (.some due) =>
      obtain ⟨rfl, ready, accounted⟩ := known due isDue
      rcases (ready.whole ▸ past : start ≤ due).lt_or_eq with earlier | rfl
      · exact .inr (.inr ⟨pass, running, by rw [isDue]; exact earlier⟩)
      · exact accounted.imp id .inl

end

variable {texts : TimeText}

/-- A CronJob no pass has run for. -/
structure Starts (state : State) : Prop where
  idle : state.pass = none
  made : state.made = []

theorem Starts.invariant {state : State} (begins : Starts state) : Invariant texts state := by
  have nothing : starts state = [] := by rw [starts, begins.made]; rfl
  exact ⟨nothing ▸ nodup_nil, nothing ▸ nofun, begins.idle ▸ nofun⟩

theorem runs_each_start_once {start state : State} (begins : Starts start)
    (reached : Transition.Reaches (step texts)
      (fun state action => Permitted state action ∧ Answered state action) start state) :
    (starts state).Nodup ∧
    ∀ action after, Permitted state action → Answered state action →
      step texts state action = some after →
      ∀ time passed, (∀ earlier ∈ marker texts state, earlier < time) →
        passed ∈ marker texts after → time ≤ passed →
        time ∈ starts state ∨ time ∈ state.skipped ∨ ∃ pass ∈ state.pass,
            GivenUp pass.due time := by
  have inv : Invariant texts state := reached.invariant begins.invariant
    fun _ _ _ inv allowed taken => step_invariant inv allowed.1 allowed.2 taken
  exact ⟨inv.distinct, fun action after permitted _ taken time passed ahead found past =>
    step_accounts inv permitted taken ahead found past⟩

/-- A CronJob of every minute, made at the seventh day. -/
def minutely : State :=
  ⟨⟨1, .object [("metadata", .object [("name", .string "c"), ("uid", .string "u"),
      ("creationTimestamp", .string (rfc3339.format (7 * Cron.day)))]),
    ("spec", .object [("schedule", .string "* * * * *")])]⟩, [], none, [], []⟩

theorem minutely_starts : Starts minutely := ⟨rfl, rfl⟩

def firstMinute : Int := 7 * Cron.day + Cron.minute

/-- A pass in the first minute, and its call for a Job. -/
def firstPass (outcome : Outcome) : List Action :=
  [.start [] (firstMinute + Cron.second), .call outcome (firstMinute + Cron.second)]

theorem runs_each_start_once_minutely :
    ∃ state, Transition.Reaches (step rfc3339)
        (fun state action => Permitted state action ∧ Answered state action) minutely state ∧
      (decide (marker rfc3339 state = some (firstMinute + Cron.minute))) = true ∧
      (starts state).Nodup := by
  refine exists_reaches_of (firstPass .served ++ [.call .served 0, .call .lost 0,
      .start [] (firstMinute + 100 * Cron.second), .call .served (firstMinute + 100 * Cron.second),
      .call .served 0])
        (fun state => decide (marker rfc3339 state = some (firstMinute + Cron.minute)))
    (by decide +kernel) fun state reached moved => ?_
  exact ⟨moved, (runs_each_start_once minutely_starts reached).1⟩

/-- The marker is not written, and the start is run again; or no Job is made, and the marker
moves. -/
theorem runs_start_twice :
    Starts minutely ∧
    (∃ state, Transition.Reaches (step rfc3339) Permitted minutely state ∧
      (decide (starts state = [firstMinute, firstMinute])) = true) ∧
    ∃ state, Transition.Reaches (step rfc3339) Permitted minutely state ∧
      (decide (marker rfc3339 state = none) && decide (firstMinute ∉ starts state) &&
        decide (firstMinute ∉ state.skipped) &&
        state.pass.all (fun pass => decide (¬ GivenUp pass.due firstMinute)) &&
        (step rfc3339 state (.call .served 0)).any fun after =>
          decide (marker rfc3339 after = some firstMinute)) = true := by
  refine ⟨minutely_starts, ?_, exists_reaches (firstPass .failed) (by decide +kernel)⟩
  exact exists_reaches (firstPass .served ++ [.call .failed 0, .stop,
    .start [] (firstMinute + 2 * Cron.second), .call .served (firstMinute + 2 * Cron.second)])
    (by decide +kernel)

end Rustkube.CronJob
