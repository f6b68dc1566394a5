import Rustkube.MigrationPasses

/- What holds of a VMI, its migrations and their passes: a machine that was moved stays where it
is. -/
namespace Rustkube.VmiMigration

open List Option Json Controllers Cron Patch

section

variable (texts : TimeText) (state : State) (pass : Pass)

def recordsCompleted (vmi : Value) (uid : String) : Bool :=
  recordedUid vmi = some uid ∧ isCompleted vmi = true ∧ (targetOf vmi).isSome = true

/-- Nothing stands in the way of a migration that is completed. -/
def unhindered (migration vmi : Value) : Bool :=
  isDeleting migration = false ∧ isFinal (phaseOf migration) = false ∧
    ¬ (phaseOf migration = "" ∨ phaseOf migration = "Pending") ∧ isDeleting vmi = false ∧
    hasFailed vmi = false

/-- The pass has the VMI as it is stored, and where its migration is completed, it is not
hindered. -/
def informed : Bool :=
  (state.vmis.current ()).map Version.number = pass.latest.map Version.number ∧
    pass.latest.all (fun vmi => !recordsCompleted vmi.object (uidOf pass.migration.object) ||
      unhindered pass.migration.object vmi.object) = true

/-- A migration is started once; what ends it hits that migration, and fails or releases it only
with the VMI in view. -/
def prudent : Bool :=
  match pass.stage with
  | .adopt => true
  | .vmi => isDeleting pass.migration.object ||
      !decide (phaseOf pass.migration.object = "" ∨ phaseOf pass.migration.object = "Pending") ||
      !state.started.contains (uidOf pass.migration.object)
  | .status => !isFinal (pass.plan texts).phase.text ||
      (state.migrations.current pass.name).all
        (fun stored => decide (uidOf stored.object = uidOf pass.migration.object)) &&
      (decide ((pass.plan texts).phase = .succeeded) || informed state pass)
  | .release => decide (phaseOf pass.migration.object = "Succeeded") || informed state pass

def Prudent : Action → Prop
  | .call index _ => state.passes[index]?.all (prudent texts state) = true
  | _ => True

instance (action : Action) : Decidable (Prudent texts state action) :=
  match action with
  | .call _ _ => inferInstanceAs (Decidable (_ = true))
  | .start _ _ _ _ | .stop _ | .report _ | .makeVmi _ | .removeVmi | .request _ _ | .collect _ =>
    inferInstanceAs (Decidable True)

end

variable (texts : TimeText)

/-- At some time the VMI has recorded the migration as completed and been on its target. -/
def Moved (state : State) (uid : String) : Prop :=
  ∃ version target, ((), version) ∈ state.vmis.past ∧ Settles version.object uid target ∧
    nodeOf version.object = some target

/-- What the pass has done to the VMI it saw. -/
def Acted (pass : Pass) : Prop :=
  (pass.plan texts).vmiPatch = none ∧ pass.latest = pass.vmi ∨
    ∃ seen new patch, pass.vmi = some seen ∧ pass.latest = some new ∧
      (pass.plan texts).vmiPatch = some patch ∧ new.object = merge seen.object patch

structure PassHolds (state : State) (pass : Pass) : Prop where
  migration : (pass.name, pass.migration) ∈ state.migrations.past
  vmi : ∀ seen ∈ pass.vmi, ((), seen) ∈ state.vmis.past
  latest : ∀ seen ∈ pass.latest, ((), seen) ∈ state.vmis.past
  acted : pass.stage = .status ∨ pass.stage = .release → Acted texts pass
  releases : pass.stage = .release → (pass.plan texts).releaseFinalizer = true

structure Invariant (state : State) : Prop where
  vmis : state.vmis.Sound
  migrations : state.migrations.Sound
  started : ∀ version, ((), version) ∈ state.vmis.past → ∀ uid ∈ recordedUid version.object,
    uid ∈ state.started
  -- A machine that was where its migration took it stays there while that migration is recorded.
  settled : ∀ version uid target, ((), version) ∈ state.vmis.past →
    Settles version.object uid target →
    nodeOf version.object = some target → ∀ stored, state.vmis.current () = some stored →
      recordedUid stored.object = some uid → Settles stored.object uid target ∧
        nodeOf stored.object = some target
  succeeded : ∀ name version, (name, version) ∈ state.migrations.past →
    phaseOf version.object = "Succeeded" → Moved state (uidOf version.object)
  passes : ∀ pass ∈ state.passes, PassHolds texts state pass

variable {texts} {state after : State} {pass : Pass} {index : Nat} {action : Action}
  {outcome : Outcome}

theorem PassHolds.mono (holds : PassHolds texts state pass)
    (vmis : ∀ entry ∈ state.vmis.past, entry ∈ after.vmis.past)
    (migrations : ∀ entry ∈ state.migrations.past, entry ∈ after.migrations.past) :
    PassHolds texts after pass :=
  ⟨migrations _ holds.migration, fun seen found => vmis _ (holds.vmi seen found),
    fun seen found => vmis _ (holds.latest seen found), holds.acted, holds.releases⟩

theorem Moved.mono {uid : String} (moved : Moved state uid)
    (vmis : ∀ entry ∈ state.vmis.past, entry ∈ after.vmis.past) : Moved after uid := by
  have ⟨version, target, known, settles, node⟩ := moved
  exact ⟨version, target, vmis _ known, settles, node⟩

variable {stored : Version Value} {name : String}

section

variable (inv : Invariant texts state) {object : Value}

include inv

theorem Invariant.on_target {uid target : String} (moved : Moved state uid)
    (current : state.vmis.current () = some stored) (settles : Settles stored.object uid target) :
    nodeOf stored.object = some target := by
  have ⟨version, other, known, was, node⟩ := moved
  have ⟨still, isNode⟩ :=
    inv.settled version uid other known was node stored current settles.recorded
  rw [isNode, ← still.target, settles.target]

theorem Invariant.moved_of_succeeded (holds : PassHolds texts state pass)
    (stage : pass.stage = .status ∨ pass.stage = .release)
    (succeeded : (pass.plan texts).phase = .succeeded) :
    Moved state (uidOf pass.migration.object) := by
  rcases plan_fits.succeeded succeeded with already | ⟨vmi, target, isSeen, settles, done⟩
  · exact inv.succeeded _ _ holds.migration already
  · obtain ⟨seen, isVmi, rfl⟩ := map_eq_some_iff.mp isSeen
    rcases done with ⟨-, node⟩ | isPatch
    · exact ⟨seen, target, holds.vmi seen isVmi, settles, node⟩
    · rcases holds.acted stage with ⟨nothing, -⟩ | ⟨old, new, patch, wasVmi, isNew, applied,
        isObject⟩
      · cases isPatch.symm.trans nothing
      · cases isVmi.symm.trans wasVmi
        cases isPatch.symm.trans applied
        refine ⟨new, target, holds.latest new isNew, ?_, ?_⟩ <;> rw [isObject]
        · exact settles_movePatch settles target
        · exact nodeOf_movePatch target

/-- A pass that fails or releases a migration with the VMI in view does so to none that is
completed. -/
theorem Invariant.not_settled (holds : PassHolds texts state pass)
    (stage : pass.stage = .status ∨ pass.stage = .release) (inView : informed state pass = true)
    (fails : isDeleting pass.migration.object = true ∨ (pass.plan texts).phase = .failed)
    (current : state.vmis.current () = some stored) {target : String} :
    ¬ Settles stored.object (uidOf pass.migration.object) target := by
  intro settles
  have ⟨same, clear⟩ := of_decide_eq_true inView
  rw [current] at same
  have ⟨latest, isLatest, isNumber⟩ := map_eq_some_iff.mp same.symm
  have known := holds.latest latest isLatest
  obtain rfl : stored = latest := by
    have equal := inv.vmis.unique _ (inv.vmis.stored () stored current) _ known isNumber.symm
    exact (Prod.mk.inj equal).2
  rw [isLatest] at clear
  have completed : recordsCompleted stored.object (uidOf pass.migration.object) = true :=
    decide_eq_true ⟨settles.recorded, settles.completed, by simp [settles.target]⟩
  simp only [all_some, completed, Bool.not_true, Bool.false_or] at clear
  have ⟨kept, going, begun, alive, sound⟩ := of_decide_eq_true clear
  rcases fails with deleting | failed
  · simp [kept] at deleting
  · rcases holds.acted stage with ⟨-, unpatched⟩ | ⟨seen, new, patch, -, isNew, isPatch, isObject⟩
    · have succeeds : (pass.plan texts).phase = .succeeded := by
        rw [Pass.plan, ← unpatched, isLatest]
        exact plan_of_settles settles kept going begun alive sound
      cases failed.symm.trans succeeds
    · cases isLatest.symm.trans isNew
      obtain ⟨why, abort, rfl⟩ :=
        plan_fits.failed failed (fun deleting => by simp [kept] at deleting) patch isPatch
      rw [isObject, hasFailed_failOnVmi] at sound
      cases sound

theorem Invariant.advance {next : Option Pass} (holds : ∀ pass ∈ next, PassHolds texts state pass) :
    Invariant texts (state.advance index next) := by
  cases next with
  | none =>
    exact { inv with passes := fun pass member =>
      (inv.passes pass (mem_of_mem_eraseIdx member)).mono (fun _ => id) fun _ => id }
  | some next =>
    exact ⟨inv.vmis, inv.migrations, inv.started, inv.settled, inv.succeeded, forall_mem_set
      (fun pass before => (inv.passes pass before).mono (fun _ => id) fun _ => id)
      ((holds _ rfl).mono (fun _ => id) fun _ => id)⟩

theorem Invariant.writeVmi
    (renews : ∀ uid, recordedUid object = some uid → uid ∉ state.started ∨
      ∃ stored, state.vmis.current () = some stored ∧ Preserves stored.object object) :
    Invariant texts (state.writeVmi object) := by
  have grows : ∀ entry ∈ state.vmis.past, entry ∈ (state.writeVmi object).vmis.past :=
    fun _ => mem_cons_of_mem _
  refine ⟨inv.vmis.write () object, inv.migrations, fun version member uid recorded => ?_,
    fun version uid target member settles node stored current recorded => ?_,
    fun name version member phase => (inv.succeeded name version member phase).mono grows,
    fun pass member => (inv.passes pass member).mono grows fun _ => id⟩
  · rcases mem_cons.mp member with new | old
    · cases new
      exact mem_append_left _ (mem_toList.mpr recorded)
    · exact mem_append_right _ (inv.started version old uid recorded)
  · have isStored : some (state.vmis.next object) = some stored :=
      Versions.write_current_self.symm.trans current
    cases isStored
    rcases mem_cons.mp member with new | old
    · cases new
      exact ⟨settles, node⟩
    · rcases renews uid recorded with first | ⟨before, was, preserves⟩
      · exact absurd (inv.started version old uid settles.recorded) first
      · have ⟨still, isNode⟩ := inv.settled version uid target old settles node before was
          (preserves.recorded.symm.trans recorded)
        exact preserves.settled uid target still isNode

theorem Invariant.writeMigration (name : String)
    (moved : phaseOf object = "Succeeded" → Moved state (uidOf object)) :
    Invariant texts (state.writeMigration name object) := by
  refine ⟨inv.vmis, inv.migrations.write name object, inv.started, inv.settled,
    fun other version member phase => ?_,
    fun pass member => (inv.passes pass member).mono (fun _ => id) fun _ => mem_cons_of_mem _⟩
  rcases mem_cons.mp member with new | old
  · cases new
    exact moved phase
  · exact inv.succeeded other version old phase

theorem Invariant.removeMigration (name : String) : Invariant texts (state.removeMigration name) :=
  { inv with
    migrations := inv.migrations.remove name
    passes := fun pass member => (inv.passes pass member).mono (fun _ => id) fun _ => id }

end

theorem toRelease_holds (holds : PassHolds texts state pass) (acted : Acted texts pass) :
    ∀ next ∈ pass.toRelease texts, PassHolds texts state next := by
  intro next isNext
  unfold Pass.toRelease at isNext
  split at isNext
  · next releases =>
    cases isNext
    exact ⟨holds.migration, holds.vmi, holds.latest, fun _ => acted, fun _ => releases⟩
  · cases isNext

theorem toStatus_holds (holds : PassHolds texts state pass) (acted : Acted texts pass) :
    ∀ next ∈ pass.toStatus texts, PassHolds texts state next := by
  intro next isNext
  unfold Pass.toStatus at isNext
  split at isNext
  · cases isNext
    exact ⟨holds.migration, holds.vmi, holds.latest, fun _ => acted, nofun⟩
  · exact toRelease_holds holds acted next isNext

theorem reconcile_holds {migration : Version Value} {vmi : Option (Version Value)} {now : Int}
    (known : (name, migration) ∈ state.migrations.past)
    (seen : ∀ version ∈ vmi, ((), version) ∈ state.vmis.past) :
    ∀ pass ∈ reconcile texts name migration vmi now, PassHolds texts state pass := by
  intro pass isPass
  have holds : PassHolds texts state ⟨name, migration, vmi, vmi, now, .adopt⟩ :=
    ⟨known, seen, seen, nofun, nofun⟩
  unfold reconcile at isPass
  dsimp only at isPass
  split at isPass
  · split at isPass
    · cases isPass
    · cases isPass
      exact holds
  · split at isPass
    · cases isPass
      exact ⟨known, seen, seen, nofun, nofun⟩
    · next quiet =>
      refine toStatus_holds holds (.inl ⟨?_, rfl⟩) pass isPass
      by_contra patched
      have ⟨patch, isPatch⟩ := ne_none_iff_exists'.mp patched
      obtain ⟨object, isSeen, -⟩ := plan_fits.writes patch isPatch
      obtain ⟨version, isVersion, -⟩ := map_eq_some_iff.mp isSeen
      have isVmi : vmi = some version := isVersion
      exact quiet (by rw [isPatch, isVmi]; rfl)

theorem Invariant.keeps_phase (inv : Invariant texts state)
    (current : state.migrations.current name = some stored) {object : Value}
    (uid : uidOf object = uidOf stored.object)
    (status : object["status"] = stored.object["status"]) :
    Invariant texts (state.writeMigration name object) := by
  refine inv.writeMigration name fun phase => ?_
  rw [uid]
  refine inv.succeeded name stored (inv.migrations.stored name stored current) ?_
  rwa [phaseOf, status] at phase

theorem uidOf_setFinalizers {migration : Value} (kept : List Value) :
    uidOf (setFinalizers migration kept) = uidOf migration := by
  have same : (setFinalizers migration kept)["metadata"]["uid"] = migration["metadata"]["uid"] := by
    rw [setFinalizers, merge_index migration (by simp) rfl rfl, merge_index_of_absent _ rfl]
  simp only [uidOf, same]

theorem uidOf_status {migration status : Value} :
    uidOf (merge migration (.object [("status", status)])) = uidOf migration := by
  have same : (merge migration (.object [("status", status)]))["metadata"] =
      migration["metadata"] :=
    merge_index_of_absent _ rfl
  simp only [uidOf, same]

theorem status_desired {status : Value} (isStatus : pass.status? texts = some status) :
    desiredStatus texts pass.migration.object (pass.vmi.map Version.object)
      (pass.plan texts) pass.now = some status := by
  unfold Pass.status? at isStatus
  split at isStatus
  · cases isStatus
  · exact isStatus

/-- What a call does to the VMI and the migrations. -/
inductive Landed (texts : TimeText) (state : State) (pass : Pass) : State → Prop
  | nothing : Landed texts state pass state
  -- the patch of the version that was seen
  | patched {stored : Version Value} {patch : Value} (stage : pass.stage = .vmi)
      (current : state.vmis.current () = some stored)
      (writes : Writes pass.migration.object stored.object patch) :
      Landed texts state pass (state.writeVmi (merge stored.object patch))
  | adopted {stored : Version Value} {kept : List Value}
      (current : state.migrations.current pass.name = some stored)
        (held : .string FINALIZER ∈ kept) :
      Landed texts state pass (state.writeMigration pass.name (setFinalizers stored.object kept))
  | status {stored : Version Value} {status : Value} (stage : pass.stage = .status)
      (isStatus : pass.status? texts = some status)
      (current : state.migrations.current pass.name = some stored) :
      Landed texts state pass
        (state.writeMigration pass.name (merge stored.object (.object [("status", status)])))
  | released {kept : List Value} (stage : pass.stage = .release)
      (current : state.migrations.current pass.name = some pass.migration) :
      Landed texts state pass
        (state.writeMigration pass.name (setFinalizers pass.migration.object kept))
  | removed (stage : pass.stage = .release)
      (current : state.migrations.current pass.name = some pass.migration) :
      Landed texts state pass (state.removeMigration pass.name)

theorem Landed.grows (landed : Landed texts state pass after) :
    (∀ entry ∈ state.vmis.past, entry ∈ after.vmis.past) ∧
      ∀ entry ∈ state.migrations.past, entry ∈ after.migrations.past := by
  cases landed with
  | nothing | removed => exact ⟨fun _ => id, fun _ => id⟩
  | patched => exact ⟨fun _ => mem_cons_of_mem _, fun _ => id⟩
  | adopted | status | released => exact ⟨fun _ => id, fun _ => mem_cons_of_mem _⟩

theorem eq_of_swaps {Key : Type} {store : Versions Key Value} (sound : store.Sound) {key : Key}
    {seen : Version Value} (current : store.current key = some stored)
    (known : (key, seen) ∈ store.past) (swapped : swaps stored seen outcome = true) :
    stored = seen :=
  (Prod.mk.inj (sound.unique _ (sound.stored key stored current) _ known
    (of_decide_eq_true swapped).2)).2

/-- A call lands, and then the pass goes on, or is over. -/
def Lands (texts : TimeText) (state : State) (pass : Pass) (index : Nat) (called : State) : Prop :=
  ∃ middle next, called = middle.advance index next ∧ Landed texts state pass middle ∧
    ∀ later ∈ next, PassHolds texts middle later

theorem lands_over (landed : Landed texts state pass after) :
    Lands texts state pass index (after.advance index none) := ⟨after, none, rfl, landed, nofun⟩

theorem adopt_lands : Lands texts state pass index (adopt state index pass outcome) := by
  unfold adopt
  split
  · next stored current =>
    split
    · exact lands_over (.adopted current (by simp))
    · exact lands_over .nothing
  · exact lands_over .nothing

theorem patchVmi_lands (inv : Invariant texts state) (holds : PassHolds texts state pass)
    (stage : pass.stage = .vmi) :
    Lands texts state pass index (patchVmi texts state index pass outcome) := by
  unfold patchVmi
  split
  · next patch seen stored isPatch isSeen current =>
    split
    · next swapped =>
      obtain rfl := eq_of_swaps inv.vmis current (holds.vmi seen isSeen) swapped
      have ⟨object, isObject, writes⟩ := plan_fits.writes patch isPatch
      rw [isSeen] at isObject
      cases isObject
      have patched : PassHolds texts (state.writeVmi (merge stored.object patch))
          { pass with latest := some (state.vmis.next (merge stored.object patch)) } := by
        refine ⟨holds.migration, fun version found => .tail _ (holds.vmi version found), ?_,
          by simp [stage], by simp [stage]⟩
        rintro version ⟨⟩
        exact .head _
      refine ⟨_, _, rfl, .patched stage current writes, fun next isNext => ?_⟩
      split at isNext
      · exact toStatus_holds patched (.inr ⟨stored, _, patch, isSeen, rfl, isPatch, rfl⟩)
          next isNext
      · cases isNext
    · exact lands_over .nothing
  · exact lands_over .nothing

theorem patchStatus_lands (holds : PassHolds texts state pass) (stage : pass.stage = .status) :
    Lands texts state pass index (patchStatus texts state index pass outcome) := by
  have goes : ∀ {after : State} (goesOn : Bool), Landed texts state pass after →
      Lands texts state pass index
          (after.advance index (if goesOn then pass.toRelease texts else none)) := by
    intro after goesOn landed
    refine ⟨_, _, rfl, landed, fun next isNext => ?_⟩
    split at isNext
    · exact (toRelease_holds holds (holds.acted (.inl stage)) next isNext).mono landed.grows.1
        landed.grows.2
    · cases isNext
  unfold patchStatus
  split
  · next status stored isStatus current =>
    dsimp only
    split
    · exact goes _ .nothing
    · exact goes _ (.status stage isStatus current)
  · exact goes _ .nothing

variable (inv : Invariant texts state)

include inv

section

variable (holds : PassHolds texts state pass)

include holds

theorem release_lands (stage : pass.stage = .release) :
    Lands texts state pass index (release state index pass outcome) := by
  unfold release
  split
  · next stored current =>
    dsimp only
    split
    · next swapped =>
      obtain rfl := eq_of_swaps inv.migrations current holds.migration swapped
      split
      · exact lands_over (.removed stage current)
      · exact lands_over (.released stage current)
    · exact lands_over .nothing
  · exact lands_over .nothing

theorem call_lands : Lands texts state pass index (call texts state index pass outcome) := by
  unfold call
  split
  · exact adopt_lands
  · next stage => exact patchVmi_lands inv holds stage
  · next stage => exact patchStatus_lands holds stage
  · next stage => exact release_lands inv holds stage

theorem landed_invariant (careful : prudent texts state pass = true)
    (landed : Landed texts state pass after) : Invariant texts after := by
  cases landed with
  | nothing => exact inv
  | @patched stored patch stage current writes =>
    refine inv.writeVmi fun uid recorded => ?_
    rcases writes.effect with preserves | ⟨waiting, early, -, isUid⟩
    · exact .inr ⟨stored, current, preserves⟩
    · refine .inl ?_
      rw [isUid uid recorded]
      simpa [prudent, stage, waiting, early] using careful
  | adopted current held =>
    exact inv.keeps_phase current (uidOf_setFinalizers _) (status_setFinalizers _)
  | @status stored status stage isStatus current =>
    refine inv.writeMigration pass.name fun phase => ?_
    rw [phaseOf_status (status_desired isStatus)] at phase
    have succeeded : (pass.plan texts).phase = .succeeded := by
      cases isPhase : (pass.plan texts).phase <;> simp [isPhase, Phase.text] at phase ⊢
    have isUid : uidOf stored.object = uidOf pass.migration.object := by
      simp [prudent, stage, succeeded, Phase.text, isFinal, current] at careful
      exact careful
    rw [uidOf_status, isUid]
    exact inv.moved_of_succeeded holds (.inl stage) succeeded
  | released stage current =>
    exact inv.keeps_phase current (uidOf_setFinalizers _) (status_setFinalizers _)
  | removed => exact inv.removeMigration pass.name

end

theorem step_invariant (permitted : Permitted state action) (careful : Prudent texts state action)
    (taken : step texts state action = some after) : Invariant texts after := by
  cases action with
  | start name migration vmi now =>
    cases taken
    refine { inv with passes := fun pass member => ?_ }
    rcases mem_append.mp member with before | new
    · exact (inv.passes pass before).mono (fun _ => id) fun _ => id
    · have holds := reconcile_holds permitted.1 permitted.2 pass (mem_toList.mp new)
      exact holds.mono (fun _ => id) fun _ => id
  | call index outcome =>
    obtain ⟨pass, found, rfl⟩ := map_eq_some_iff.mp taken
    have holds := inv.passes pass (mem_of_getElem? found)
    obtain ⟨middle, next, isCalled, landed, later⟩ := call_lands inv holds
    rw [isCalled]
    have prudence := (all_eq_true _ _).mp careful pass found
    exact (landed_invariant inv holds prudence landed).advance later
  | stop index =>
    cases taken
    exact inv.advance nofun
  | report object =>
    cases taken
    have ⟨stored, current, reports⟩ := permitted
    exact inv.writeVmi fun _ _ => .inr ⟨stored, current, reports.preserves⟩
  | makeVmi object =>
    cases taken
    exact inv.writeVmi fun uid recorded => absurd (permitted.2.symm.trans recorded) nofun
  | removeVmi =>
    cases taken
    refine ⟨inv.vmis.remove (), inv.migrations, inv.started, ?_, inv.succeeded,
      fun pass member => (inv.passes pass member).mono (fun _ => id) fun _ => id⟩
    intro version uid target member settles node stored current
    exact inv.settled version uid target member settles node stored
      (Versions.current_of_remove current)
  | request name object =>
    cases taken
    simp only [Permitted] at permitted
    cases current : state.migrations.current name with
    | some stored =>
      rw [current] at permitted
      exact inv.keeps_phase current permitted.1 permitted.2.1
    | none =>
      rw [current] at permitted
      refine inv.writeMigration name fun phase => ?_
      have going : isFinal (phaseOf object) = false := permitted
      simp [phase, isFinal] at going
  | collect name =>
    cases taken
    exact inv.removeMigration name

end Rustkube.VmiMigration
