import Rustkube.Job
import Rustkube.Lib.Versions

/- A Job's passes, one after the other, among its Pods that finish, fail and are deleted. -/
namespace Rustkube.Job

open Bool List Option Json Controllers

/-- A pass under way: the Job it read, and what it has left to do. -/
structure Running where
  seen : Version Value
  pass : Pass

/-- The Job, its Pods and its pass, with how many of its Pods have ever succeeded and failed. -/
structure State where
  job : Version Value
  pods : List Value
  running : Option Running
  everSucceeded : Nat
  everFailed : Nat

inductive Action where
  /-- a pass, from what is there -/
  | start (clock : Clock)
  | delete (time : String) (lands : Bool)
  | create (suffix : String) (lands : Bool)
  | write (lands : Bool)
  /-- the pass is cut off -/
  | stop
  /-- a Pod's status or metadata changes -/
  | change (index : Nat) (after : Value)
  /-- a Pod is gone -/
  | remove (index : Nat)
  /-- somebody else writes the Job -/
  | touch (object : Value)

/-- How many more have come to pass the test. -/
def newly (test : Value → Bool) (before after : Value) : Nat :=
  if !test before && test after then 1 else 0

/-- A pass deletes, then makes, then writes. A delete and the write are of the versions that were
read. -/
def step (state : State) : Action → Option State
  | .start clock =>
    match state.running, reconcileJob clock state.job.object state.pods with
    | none, .ok (some pass) => some { state with running := some ⟨state.job, pass⟩ }
    | none, _ => some state
    | some _, _ => none
  | .delete time lands =>
    match state.running with
    | some ⟨seen, ⟨pod :: rest, creates, update⟩⟩ => some { state with
        pods := if lands then state.pods.map fun stored => if stored = pod then marked time stored
          else stored else state.pods
        running := some ⟨seen, ⟨rest, creates, update⟩⟩ }
    | _ => none
  | .create suffix lands =>
    match state.running with
    | some ⟨seen, ⟨[], creates + 1, update⟩⟩ => some { state with
        pods := if lands then
          state.pods ++ [buildJobPod (namespaceName seen.object) seen.object suffix] else state.pods
        running := some ⟨seen, ⟨[], creates, update⟩⟩ }
    | _ => none
  | .write lands =>
    match state.running with
    | some ⟨seen, ⟨[], 0, update⟩⟩ => some { state with
        job := if lands ∧ state.job.number = seen.number then ⟨state.job.number + 1, update⟩
          else state.job
        running := none }
    | _ => none
  | .stop => some { state with running := none }
  | .change index after =>
    (state.pods[index]?).map fun pod => { state with
      pods := state.pods.set index after
      everSucceeded := state.everSucceeded + newly hasSucceeded pod after
      everFailed := state.everFailed + newly hasFailed pod after }
  | .remove index => some { state with pods := state.pods.eraseIdx index }
  | .touch object => some { state with job := ⟨state.job.number + 1, object⟩ }

/-- A Pod stays the Job's, and one that has ended stays so; others leave the Job's spec and status
to their owners. -/
def Permitted (state : State) : Action → Prop
  | .change index after => ∀ pod ∈ state.pods[index]?,
      after["metadata"]["ownerReferences"] = pod["metadata"]["ownerReferences"] ∧
        (isActive pod = true ∨ phaseOf after = phaseOf pod)
  | .touch object =>
      object["metadata"]["uid"] = state.job.object["metadata"]["uid"] ∧
        object["spec"] = state.job.object["spec"] ∧ object["status"] = state.job.object["status"]
  | _ => True

instance (state : State) (action : Action) : Decidable (Permitted state action) :=
  match action with
  | .change index _ => inferInstanceAs (Decidable (∀ pod ∈ state.pods[index]?, _))
  | .touch _ => inferInstanceAs (Decidable (_ ∧ _))
  | .start _ | .delete _ _ | .create _ _ | .write _ | .stop | .remove _ =>
    inferInstanceAs (Decidable True)

/-- Until the Job has finished, no Pod of it that has ended is taken away. -/
def Remembers (state : State) : Action → Prop
  | .remove index => isFinished state.job.object = true ∨
      ∀ pod ∈ state.pods[index]?, isActive pod = true
  | _ => True

instance (state : State) (action : Action) : Decidable (Remembers state action) :=
  match action with
  | .remove index =>
    inferInstanceAs (Decidable (_ ∨ ∀ pod ∈ state.pods[index]?, _))
  | .start _ | .delete _ _ | .create _ _ | .write _ | .stop | .change _ _ | .touch _ =>
    inferInstanceAs (Decidable True)

def storedCount (field : String) (job : Value) : Int := (job["status"][field].asInt?).getD 0

/-- A pass under way read a Job that is no newer than the stored one, and no more than has happened;
what it writes is no less than what is stored where it lands. -/
structure Underway (job : Version Value) (everSucceeded everFailed : Nat) (seen : Version Value)
    (update : Value) : Prop where
  older : seen.number ≤ job.number
  same : seen.number = job.number → seen = job
  unfinished : isFinished seen.object = false
  owner : uidOf seen.object = uidOf job.object
  written : ∃ succeeded failed, Written seen.object update succeeded failed ∧
    succeeded ≤ everSucceeded ∧ failed ≤ everFailed ∧
    storedCount "succeeded" seen.object ≤ succeeded ∧ storedCount "failed" seen.object ≤ failed

def creating (state : State) : Nat := (state.running.map fun running => running.pass.creates).getD 0

structure Invariant (state : State) : Prop where
  shaped : Shaped state.job.object
  owned : ∀ pod ∈ state.pods, ownedBy pod (uidOf state.job.object) = true
  exact : isFinished state.job.object = false →
    state.pods.countP hasSucceeded = state.everSucceeded ∧
      state.pods.countP hasFailed = state.everFailed
  room : state.everSucceeded + state.pods.countP isActive + creating state ≤
    completions state.job.object
  stored : storedCount "succeeded" state.job.object ≤ state.everSucceeded ∧
    storedCount "failed" state.job.object ≤ state.everFailed
  underway : ∀ running ∈ state.running,
    Underway state.job state.everSucceeded state.everFailed running.seen running.pass.update

variable {pods : List Value} {index : Nat} {pod : Value}

theorem countP_changed (after : Value) (test : Value → Bool) (found : pods[index]? = some pod) :
    (pods.set index after).countP test + (if test pod then 1 else 0) =
      pods.countP test + if test after then 1 else 0 := by
  obtain ⟨inside, rfl⟩ := List.getElem?_eq_some_iff.mp found
  have counted : (if test pods[index] then 1 else 0) ≤ pods.countP test := by
    split_ifs with passes
    · exact countP_pos_iff.mpr ⟨_, getElem_mem inside, passes⟩
    · exact Nat.zero_le _
  rw [countP_set inside]
  omega

theorem countP_removed (test : Value → Bool) (found : pods[index]? = some pod) :
    (pods.eraseIdx index).countP test + (if test pod then 1 else 0) = pods.countP test := by
  obtain ⟨inside, rfl⟩ := List.getElem?_eq_some_iff.mp found
  rw [← (getElem_cons_eraseIdx_perm inside).countP_eq, countP_cons]

theorem hasFailed_of_hasSucceeded (succeeded : hasSucceeded pod = true) :
    hasFailed pod = false := by
  have phase : phaseOf pod = "Succeeded" := of_decide_eq_true succeeded
  rw [hasFailed, phase]
  decide

/-- The Pods that succeeded, failed and are active, when one of them changes. -/
theorem counts_changed {after : Value} (found : pods[index]? = some pod)
    (stays : isActive pod = true ∨ phaseOf after = phaseOf pod) :
    (pods.set index after).countP hasSucceeded =
        pods.countP hasSucceeded + newly hasSucceeded pod after ∧
      (pods.set index after).countP hasFailed = pods.countP hasFailed + newly hasFailed pod after ∧
      newly hasSucceeded pod after + (pods.set index after).countP isActive ≤
          pods.countP isActive := by
  have succeeded := countP_changed after hasSucceeded found
  have failed := countP_changed after hasFailed found
  have active := countP_changed after isActive found
  rcases stays with wasActive | same
  · obtain ⟨notSucceeded, notFailed⟩ : hasSucceeded pod = false ∧ hasFailed pod = false := by
      simpa [isActive] using wasActive
    have only : hasSucceeded after = true → hasFailed after = false := hasFailed_of_hasSucceeded
    cases now : hasSucceeded after <;> cases fell : hasFailed after <;>
      simp [newly, isActive, now, fell, notSucceeded, notFailed]
        at succeeded failed active only ⊢ <;>
      omega
  · have alike : hasSucceeded after = hasSucceeded pod ∧ hasFailed after = hasFailed pod := by
      simp [hasSucceeded, hasFailed, same]
    simp [newly, isActive, alike.1, alike.2] at succeeded failed active ⊢
    omega

section

variable {state : State} {seen : Version Value} {update pod : Value} {creates : Nat}

theorem buildJobPod_reads (namespaceName : String) (job : Value) (suffix : String) :
    ownedBy (buildJobPod namespaceName job suffix) (uidOf job) = true ∧
      hasSucceeded (buildJobPod namespaceName job suffix) = false ∧
      hasFailed (buildJobPod namespaceName job suffix) = false := by
  have refs : ownerRefs (buildJobPod namespaceName job suffix) =
    [ownerReference "batch/v1" "Job" job] := rfl
  have phase : phaseOf (buildJobPod namespaceName job suffix) = "Pending" := rfl
  simp [ownedBy, refs, hasSucceeded, hasFailed, phase]

section

variable (inv : Invariant state)

include inv

theorem Invariant.start (idle : state.running = none) {clock : Clock} {pass : Pass}
    (ran : reconcileJob clock state.job.object state.pods = .ok (some pass)) :
    Invariant { state with running := some ⟨state.job, pass⟩ } := by
  have counted := reconcileJob_counted inv.shaped inv.owned ran
  have ⟨succeeded, failed⟩ := inv.exact counted.unfinished
  refine ⟨inv.shaped, inv.owned, inv.exact, ?_, inv.stored, ?_⟩
  · have room := inv.room
    have more := counted.room
    simp only [creating, idle, map_none, getD_none, map_some, getD_some] at room ⊢
    omega
  · rintro running isRunning
    cases isRunning
    exact ⟨le_rfl, fun _ => rfl, counted.unfinished, rfl, _, _, counted.written,
      Nat.le_of_eq succeeded, Nat.le_of_eq failed, succeeded ▸ inv.stored.1, failed ▸ inv.stored.2⟩

theorem Invariant.goesOn {pass next : Pass}
    (underway : state.running = some ⟨seen, pass⟩) (same : next.update = pass.update) :
    ∀ running ∈ some (Running.mk seen next),
      Underway state.job state.everSucceeded state.everFailed running.seen running.pass.update := by
  rintro running isRunning
  cases isRunning
  rw [same]
  exact inv.underway _ underway

/-- The Pods change, none of them by its phase, and the pass goes on. -/
theorem Invariant.delete {rest : List Value}
    (underway : state.running = some ⟨seen, ⟨pod :: rest, creates, update⟩⟩) (time : String)
    (lands : Bool) :
    Invariant { state with
      pods := if lands then state.pods.map fun stored => if stored = pod then marked time stored
        else stored else state.pods
      running := some ⟨seen, ⟨rest, creates, update⟩⟩ } := by
  have room := inv.room
  simp only [creating, underway, map_some, getD_some] at room
  cases lands with
  | false => exact { inv with room, underway := inv.goesOn underway rfl }
  | true =>
    set change := fun stored => if stored = pod then marked time stored else stored with isChange
    have became (stored : Value) : phaseOf (change stored) = phaseOf stored ∧
        ownedBy (change stored) (uidOf state.job.object) = ownedBy stored
            (uidOf state.job.object) := by
      have ⟨owners, status⟩ := marked_reads time stored
      simp only [isChange]
      split_ifs
      · exact ⟨by rw [phaseOf, status, phaseOf],
          by rw [ownedBy, ownerRefs, owners, ownedBy, ownerRefs]⟩
      · exact ⟨rfl, rfl⟩
    have counts (test : Value → Bool) (reads : ∀ stored, test (change stored) = test stored) :
        (state.pods.map change).countP test = state.pods.countP test := by
      rw [countP_map]
      exact congrArg (countP · _) (funext reads)
    have succeeded := counts hasSucceeded fun stored => by simp [hasSucceeded, became]
    have failed := counts hasFailed fun stored => by simp [hasFailed, became]
    have active := counts isActive fun stored => by simp [isActive, hasSucceeded, hasFailed, became]
    refine ⟨inv.shaped, fun changed member => ?_, fun unfinished => ?_, ?_, inv.stored,
      inv.goesOn underway rfl⟩
    · obtain ⟨stored, present, rfl⟩ := mem_map.mp member
      exact (became stored).2.trans (inv.owned stored present)
    · simp only [if_true, succeeded, failed]
      exact inv.exact unfinished
    · simp only [if_true, active]
      exact room

theorem Invariant.create
    (underway : state.running = some ⟨seen, ⟨[], creates + 1, update⟩⟩) (suffix : String)
    (lands : Bool) :
    Invariant { state with
      pods := if lands then
        state.pods ++ [buildJobPod (namespaceName seen.object) seen.object suffix] else state.pods
      running := some ⟨seen, ⟨[], creates, update⟩⟩ } := by
  have before := inv.underway _ underway
  have room := inv.room
  simp only [creating, underway, map_some, getD_some] at room
  cases lands with
  | false =>
    refine { inv with room := ?_, underway := inv.goesOn underway rfl }
    simp only [creating, map_some, getD_some, false_eq_true, if_false]
    omega
  | true =>
    have ⟨owned, notSucceeded, notFailed⟩ :=
      buildJobPod_reads (namespaceName seen.object) seen.object suffix
    rw [before.owner] at owned
    have active : isActive (buildJobPod (namespaceName seen.object) seen.object suffix) = true := by
      rfl
    refine ⟨inv.shaped, ?_, ?_, ?_, inv.stored, inv.goesOn underway rfl⟩
    · exact forall_mem_concat inv.owned owned
    · intro unfinished
      have ⟨succeeded, failed⟩ := inv.exact unfinished
      simp [countP_append, notSucceeded, notFailed, succeeded, failed]
    · simp only [creating, map_some, getD_some, if_true, countP_append, countP_singleton, active]
      omega

end

theorem storedCount_written {job after : Value} {succeeded failed : Nat}
    (written : Written job after succeeded failed) :
    storedCount "succeeded" after = succeeded ∧ storedCount "failed" after = failed := by
  unfold storedCount
  rw [written.succeeded, written.failed]
  exact ⟨rfl, rfl⟩

variable (inv : Invariant state) {running : Running} {action : Action} {after : State}

include inv

/-- What is written where a pass's write lands: no count goes down. -/
theorem Invariant.lands (underway : state.running = some running)
    (current : state.job.number = running.seen.number) :
    ∃ succeeded failed, Written state.job.object running.pass.update succeeded failed ∧
      succeeded ≤ state.everSucceeded ∧ failed ≤ state.everFailed ∧
      storedCount "succeeded" state.job.object ≤ succeeded ∧
      storedCount "failed" state.job.object ≤ failed ∧ isFinished state.job.object = false := by
  have under := inv.underway running underway
  have ⟨succeeded, failed, rest⟩ := under.written
  have unfinished := under.unfinished
  rw [under.same current.symm] at rest unfinished
  exact ⟨succeeded, failed, rest.1, rest.2.1, rest.2.2.1, rest.2.2.2.1, rest.2.2.2.2, unfinished⟩

theorem Invariant.write (underway : state.running = some running) (lands : Bool) :
    Invariant { state with
      job := if lands ∧ state.job.number = running.seen.number then
        ⟨state.job.number + 1, running.pass.update⟩ else state.job
      running := none } := by
  have room := inv.room
  by_cases landed : lands = true ∧ state.job.number = running.seen.number
  · obtain ⟨succeeded, failed, written, fewer, fewerFailed, -, -, unfinished⟩ :=
      inv.lands underway landed.2
    have owner : uidOf running.pass.update = uidOf state.job.object := by
      rw [uidOf, written.metadata, uidOf]
    have counts := storedCount_written written
    simp only [if_pos landed]
    refine ⟨written.shaped, ?_, fun _ => inv.exact unfinished, ?_, ?_, ?_⟩
    · intro pod member
      rw [owner]
      exact inv.owned pod member
    · simp only [creating, map_none, getD_none, completions, written.spec]
      exact Nat.le_trans (by omega) room
    · dsimp only
      omega
    · exact nofun
  · simp only [if_neg landed]
    refine { inv with room := ?_, underway := nofun }
    simp only [creating, map_none, getD_none]
    omega

theorem Invariant.change {index : Nat} {after : Value} (found : state.pods[index]? = some pod)
    (owners : after["metadata"]["ownerReferences"] = pod["metadata"]["ownerReferences"])
    (stays : isActive pod = true ∨ phaseOf after = phaseOf pod) :
    Invariant { state with
      pods := state.pods.set index after
      everSucceeded := state.everSucceeded + newly hasSucceeded pod after
      everFailed := state.everFailed + newly hasFailed pod after } := by
  have ⟨succeeded, failed, active⟩ := counts_changed found stays
  refine ⟨inv.shaped, ?_, ?_, ?_, ?_, ?_⟩
  · refine forall_mem_set inv.owned ?_
    rw [ownedBy, ownerRefs, owners]
    exact inv.owned pod (mem_of_getElem? found)
  · intro unfinished
    have ⟨wasSucceeded, wasFailed⟩ := inv.exact unfinished
    exact ⟨by rw [succeeded, wasSucceeded], by rw [failed, wasFailed]⟩
  · have room := inv.room
    simp only [creating] at room ⊢
    omega
  · have stored := inv.stored
    dsimp only
    omega
  · intro running isRunning
    have under := inv.underway running isRunning
    have ⟨seenSucceeded, seenFailed, written, fewer, fewerFailed, more, moreFailed⟩ := under.written
    exact ⟨under.older, under.same, under.unfinished, under.owner, seenSucceeded, seenFailed,
      written, Nat.le_add_right_of_le fewer, Nat.le_add_right_of_le fewerFailed, more, moreFailed⟩

theorem Invariant.remove (index : Nat) (remembers : isFinished state.job.object = true ∨
      ∀ pod ∈ state.pods[index]?, isActive pod = true) :
    Invariant { state with pods := state.pods.eraseIdx index } := by
  have fewer : (state.pods.eraseIdx index).countP isActive ≤ state.pods.countP isActive :=
    (eraseIdx_sublist ..).countP_le
  refine ⟨inv.shaped, fun pod member => inv.owned pod (mem_of_mem_eraseIdx member), ?_, ?_,
    inv.stored, inv.underway⟩
  · intro unfinished
    have exact := inv.exact unfinished
    have wasActive : ∀ pod ∈ state.pods[index]?, isActive pod = true := by
      rcases remembers with finished | active
      · rw [unfinished] at finished
        cases finished
      · exact active
    cases found : state.pods[index]? with
    | none =>
      have outside : state.pods.length ≤ index := getElem?_eq_none_iff.mp found
      simpa only [eraseIdx_of_length_le outside] using exact
    | some pod =>
      have succeeded := countP_removed hasSucceeded found
      have failed := countP_removed hasFailed found
      have active := wasActive pod found
      simp only [isActive, and_eq_true, not_eq_true'] at active
      rw [active.1] at succeeded
      rw [active.2] at failed
      simp only [false_eq_true, if_false] at succeeded failed
      dsimp only
      omega
  · have room := inv.room
    simp only [creating] at room ⊢
    omega

theorem Invariant.touch {object : Value}
    (uid : object["metadata"]["uid"] = state.job.object["metadata"]["uid"])
    (spec : object["spec"] = state.job.object["spec"])
    (status : object["status"] = state.job.object["status"]) :
    Invariant { state with job := ⟨state.job.number + 1, object⟩ } := by
  have owner : uidOf object = uidOf state.job.object := by rw [uidOf, uid, uidOf]
  have finished : isFinished object = isFinished state.job.object := by
    simp only [isFinished, isMarked, conditionsOf, status]
  refine ⟨?_, ?_, ?_, ?_, ?_, ?_⟩
  · unfold Shaped
    rw [status]
    exact inv.shaped
  · rw [owner]
    exact inv.owned
  · rw [finished]
    exact inv.exact
  · have room := inv.room
    unfold completions at room ⊢
    rwa [spec]
  · unfold storedCount
    rw [status]
    exact inv.stored
  · intro running isRunning
    have under := inv.underway running isRunning
    refine ⟨Nat.le_succ_of_le under.older, fun same => ?_, under.unfinished,
      under.owner.trans owner.symm, under.written⟩
    have older := under.older
    dsimp only at same
    omega

theorem step_invariant (allowed : Permitted state action ∧ Remembers state action)
    (taken : step state action = some after) : Invariant after := by
  have ⟨permitted, remembers⟩ := allowed
  cases action with
  | start clock =>
    simp only [step] at taken
    split at taken
    · next pass idle ran =>
      cases taken
      exact inv.start idle ran
    · cases taken
      exact inv
    · cases taken
  | delete time lands =>
    simp only [step] at taken
    split at taken
    · next seen pod rest creates update underway =>
      cases taken
      exact inv.delete underway time lands
    · cases taken
  | create suffix lands =>
    simp only [step] at taken
    split at taken
    · next seen creates update underway =>
      cases taken
      exact inv.create underway suffix lands
    · cases taken
  | write lands =>
    simp only [step] at taken
    split at taken
    · next seen update underway =>
      cases taken
      exact inv.write underway lands
    · cases taken
  | stop =>
    cases taken
    refine { inv with room := ?_, underway := nofun }
    have room := inv.room
    simp only [creating, map_none, getD_none] at room ⊢
    omega
  | change index changed =>
    obtain ⟨pod, found, rfl⟩ := map_eq_some_iff.mp taken
    have ⟨owners, stays⟩ := permitted pod found
    exact inv.change found owners stays
  | remove index =>
    cases taken
    exact inv.remove index remembers
  | touch object =>
    cases taken
    exact inv.touch permitted.1 permitted.2.1 permitted.2.2

theorem step_stored (permitted : Permitted state action) (taken : step state action = some after) :
    storedCount "succeeded" state.job.object ≤ storedCount "succeeded" after.job.object ∧
      storedCount "failed" state.job.object ≤ storedCount "failed" after.job.object := by
  cases action with
  | start clock =>
    simp only [step] at taken
    split at taken
    · cases taken
      exact ⟨le_rfl, le_rfl⟩
    · cases taken
      exact ⟨le_rfl, le_rfl⟩
    · cases taken
  | delete | create =>
    simp only [step] at taken
    split at taken
    · cases taken
      exact ⟨le_rfl, le_rfl⟩
    · cases taken
  | write lands =>
    simp only [step] at taken
    split at taken
    · next seen update underway =>
      cases taken
      by_cases landed : lands = true ∧ state.job.number = seen.number
      · obtain ⟨succeeded, failed, written, -, -, more, moreFailed, -⟩ :=
          inv.lands underway landed.2
        have ⟨isSucceeded, isFailed⟩ := storedCount_written written
        simp only [if_pos landed, isSucceeded, isFailed]
        exact ⟨more, moreFailed⟩
      · rw [if_neg landed]
        exact ⟨le_rfl, le_rfl⟩
    · cases taken
  | change index changed =>
    obtain ⟨pod, found, rfl⟩ := map_eq_some_iff.mp taken
    exact ⟨le_rfl, le_rfl⟩
  | stop | remove =>
    cases taken
    exact ⟨le_rfl, le_rfl⟩
  | touch object =>
    cases taken
    simp only [storedCount, permitted.2.2]
    exact ⟨le_rfl, le_rfl⟩

end

/-- A Job that was just made. -/
structure Starts (state : State) : Prop where
  shaped : Shaped state.job.object
  pods : state.pods = []
  running : state.running = none
  ever : state.everSucceeded = 0 ∧ state.everFailed = 0
  stored : storedCount "succeeded" state.job.object ≤ 0 ∧ storedCount "failed" state.job.object ≤ 0

theorem Starts.invariant {state : State} (starts : Starts state) : Invariant state := by
  have ⟨succeeded, failed⟩ := starts.ever
  refine ⟨starts.shaped, ?_, ?_, ?_, ?_, ?_⟩
  · rw [starts.pods]
    simp
  · rw [starts.pods, succeeded, failed]
    simp
  · rw [starts.pods, succeeded, creating, starts.running]
    simp
  · rw [succeeded, failed]
    exact starts.stored
  · rw [starts.running]
    simp

theorem job_forgets_nothing {start state : State} (starts : Starts start)
    (reached : Transition.Reaches step
      (fun state action => Permitted state action ∧ Remembers state action) start state) :
    state.everSucceeded ≤ completions state.job.object ∧
    (∀ action after, Permitted state action → step state action = some after →
      storedCount "succeeded" state.job.object ≤ storedCount "succeeded" after.job.object ∧
        storedCount "failed" state.job.object ≤ storedCount "failed" after.job.object) ∧
    ∀ clock pass, reconcileJob clock state.job.object state.pods = .ok (some pass) →
      backoffLimit state.job.object < state.everFailed → isMarked pass.update "Failed" = true := by
  have inv : Invariant state := reached.invariant starts.invariant
    fun _ _ _ inv allowed taken => step_invariant inv allowed taken
  refine ⟨?_, fun action after permitted taken => step_stored inv permitted taken,
    fun clock pass ran tooMany => ?_⟩
  · have room := inv.room
    omega
  · have counted := reconcileJob_counted inv.shaped inv.owned ran
    exact counted.fails ((inv.exact counted.unfinished).2 ▸ tooMany)

/-- A Job of two completions, one at a time. -/
def pair : Value :=
  .object [("metadata", .object [("name", .string "pair"), ("uid", .string "u")]),
    ("spec", .object [("completions", .number 2)])]

def pairStart : State := ⟨⟨1, pair⟩, [], none, 0, 0⟩

theorem pairStart_starts : Starts pairStart :=
  ⟨by decide +kernel, rfl, rfl, ⟨rfl, rfl⟩, by decide +kernel⟩

def stopped : Clock := ⟨"t", fun _ => none⟩

/-- A pass makes the Pod, and it succeeds. -/
def firstSucceeds : List Action :=
  [.start stopped, .create "a" true, .write true,
    .change 0 ((buildJobPod "default" pair "a").insert "status"
      (.object [("phase", .string "Succeeded")]))]

/-- The next pass counts it. -/
def countsFirst : List Action := [.start stopped, .create "b" true, .write true]

theorem job_forgets_nothing_counted :
    ∃ state, Transition.Reaches step
        (fun state action => Permitted state action ∧ Remembers state action) pairStart state ∧
      (decide (storedCount "succeeded" state.job.object = 1)) = true ∧ state.everSucceeded ≤ 2 := by
  refine Transition.exists_reaches_of (firstSucceeds ++ countsFirst) (fun state =>
    decide (storedCount "succeeded" state.job.object = 1) &&
      decide (completions state.job.object = 2))
    (by decide +kernel) fun state reached tested => ?_
  have ⟨counted, two⟩ := and_eq_true_iff.mp tested
  have bound := (job_forgets_nothing pairStart_starts reached).1
  rw [of_decide_eq_true two] at bound
  exact ⟨counted, bound⟩

theorem job_forgets_deleted :
    Starts pairStart ∧
    ∃ state, Transition.Reaches step Permitted pairStart state ∧
      (decide (storedCount "succeeded" state.job.object = 1) &&
        (step state (.write true)).any fun after =>
          decide (storedCount "succeeded" after.job.object = 0)) = true :=
  ⟨pairStart_starts, Transition.exists_reaches
    (firstSucceeds ++ countsFirst ++ [.remove 0, .start stopped]) (by decide +kernel)⟩

end Rustkube.Job
