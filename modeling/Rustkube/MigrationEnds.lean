import Rustkube.MigrationMoves

/- When a migration ends, the VMI's node is where the machine is. -/
namespace Rustkube.VmiMigration

open Bool Option Versions Json Controllers Scheduler Cron Patch

section

variable {texts : TimeText} {state after : State} {action : Action} {pass : Pass}
  {outcome : Outcome} {index : Nat} {name target : String} {migration : Version Value}

/-- The migration is final after the step and was not before, or nothing holds it any more. -/
def Ends (after : State) (name : String) (migration : Value) : Prop :=
  (isFinal (phaseOf migration) = false ∧
      ∃ later ∈ after.migrations.current name, isFinal (phaseOf later.object) = true) ∨
    (hasFinalizer migration = true ∧
      ∀ later ∈ after.migrations.current name, hasFinalizer later.object = false)

/-- If the VMI records the migration as completed, it is on its target. -/
def OnTarget (state : State) (uid : String) : Prop :=
  ∀ vmi, state.vmis.current () = some vmi → ∀ target, Settles vmi.object uid target →
    nodeOf vmi.object = some target

theorem not_ends_of_same (current : state.migrations.current name = some migration)
    (same : after.migrations.current name = state.migrations.current name) :
    ¬ Ends after name migration.object := by
  rintro (⟨going, other, found, final⟩ | ⟨holds, free⟩)
  · cases current.symm.trans (same.symm.trans found)
    rw [going] at final
    cases final
  · rw [free migration (same.trans current)] at holds
    cases holds

theorem advance_migrations (next : Option Pass) :
    (state.advance index next).migrations = state.migrations := by
  cases next <;> rfl

section

variable (current : state.migrations.current name = some migration)

include current

theorem ends_of_write {object : Value}
    (ends : Ends (state.writeMigration target object) name migration.object) :
    name = target ∧ (isFinal (phaseOf migration.object) = false ∧ isFinal (phaseOf object) = true ∨
      hasFinalizer migration.object = true ∧ hasFinalizer object = false) := by
  by_cases same : name = target
  · subst same
    have isLater : (state.writeMigration name object).migrations.current name =
        some (state.migrations.next object) := write_current_self
    rcases ends with ⟨going, later, found, final⟩ | ⟨holds, free⟩
    · cases isLater.symm.trans found
      exact ⟨rfl, .inl ⟨going, final⟩⟩
    · exact ⟨rfl, .inr ⟨holds, free _ isLater⟩⟩
  · exact absurd ends (not_ends_of_same current (write_current_of_ne same))

theorem ends_of_remove (ends : Ends (state.removeMigration target) name migration.object) :
    name = target ∧ hasFinalizer migration.object = true := by
  by_cases same : name = target
  · subst same
    rcases ends with ⟨-, later, found, -⟩ | ⟨holds, -⟩
    · rw [State.removeMigration, remove_current_self] at found
      cases found
    · exact ⟨rfl, holds⟩
  · exact absurd ends (not_ends_of_same current (remove_current_of_ne same))

end

theorem isFinal_text {phase : Phase} (final : isFinal phase.text = true) :
    phase = .succeeded ∨ phase = .failed := by
  cases phase <;> first | exact .inl rfl | exact .inr rfl | exact absurd final (by decide)

theorem not_ends_setFinalizers {kept : List Value}
    (current : state.migrations.current pass.name = some migration)
    (held : .string FINALIZER ∈ kept) :
    ∀ other, state.migrations.current name = some other →
      ¬ Ends (state.writeMigration pass.name (setFinalizers migration.object kept)) name
          other.object := by
  intro other isOther ends
  obtain ⟨rfl, changed⟩ := ends_of_write isOther ends
  cases current.symm.trans isOther
  rcases changed with ⟨going, final⟩ | ⟨-, free⟩
  · rw [phaseOf, status_setFinalizers] at final
    cases going.symm.trans final
  · rw [hasFinalizer, finalizers_setFinalizers] at free
    exact absurd (List.any_eq_false.mp free _ held) (by simp)

section

variable (inv : Invariant texts state)

include inv

section

variable (holds : PassHolds texts state pass)

include holds

theorem release_on_target (stage : pass.stage = .release)
    (careful : prudent texts state pass = true) : OnTarget state (uidOf pass.migration.object) := by
  have deleting := plan_fits.releases (holds.releases stage)
  simp only [prudent, stage, or_eq_true, decide_eq_true_eq] at careful
  intro vmi isVmi target settles
  rcases careful with succeeded | inView
  · exact inv.on_target (inv.succeeded _ _ holds.migration succeeded) isVmi settles
  · exact absurd settles (inv.not_settled holds (.inr stage) inView (.inl deleting) isVmi)

theorem status_on_target (stage : pass.stage = .status) (careful : prudent texts state pass = true)
    (current : state.migrations.current pass.name = some migration)
    (final : isFinal (pass.plan texts).phase.text = true) :
    OnTarget state (uidOf migration.object) := by
  simp only [prudent, stage, final, current, all_some, Bool.not_true, Bool.false_or,
    and_eq_true, or_eq_true, decide_eq_true_eq] at careful
  obtain ⟨isUid, careful⟩ := careful
  rw [isUid]
  intro vmi isVmi target settles
  rcases isFinal_text final with succeeds | fails
  · exact inv.on_target (inv.moved_of_succeeded holds (.inl stage) succeeds) isVmi settles
  · have inView := careful.resolve_left (by simp [fails])
    exact absurd settles (inv.not_settled holds (.inl stage) inView (.inr fails) isVmi)

theorem landed_on_target (careful : prudent texts state pass = true)
    (landed : Landed texts state pass after)
    (current : state.migrations.current name = some migration)
    (ends : Ends after name migration.object) : OnTarget state (uidOf migration.object) := by
  cases landed with
  | nothing | patched => exact absurd ends (not_ends_of_same current rfl)
  | adopted isStored held => exact absurd ends (not_ends_setFinalizers isStored held _ current)
  | status stage isStatus isStored =>
    obtain ⟨rfl, changed⟩ := ends_of_write current ends
    cases isStored.symm.trans current
    rw [hasFinalizer_status, phaseOf_status (status_desired isStatus)] at changed
    rcases changed with ⟨-, final⟩ | ⟨held, free⟩
    · exact status_on_target inv holds stage careful current final
    · cases held.symm.trans free
  | released stage isStored =>
    obtain ⟨rfl, -⟩ := ends_of_write current ends
    cases isStored.symm.trans current
    exact release_on_target inv holds stage careful
  | removed stage isStored =>
    obtain ⟨rfl, -⟩ := ends_of_remove current ends
    cases isStored.symm.trans current
    exact release_on_target inv holds stage careful

end

theorem step_on_target (permitted : Permitted state action) (careful : Prudent texts state action)
    (taken : step texts state action = some after)
    (current : state.migrations.current name = some migration)
    (ends : Ends after name migration.object) : OnTarget state (uidOf migration.object) := by
  cases action with
  | call index outcome =>
    obtain ⟨pass, found, rfl⟩ := map_eq_some_iff.mp taken
    have holds := inv.passes pass (List.mem_of_getElem? found)
    obtain ⟨middle, next, isCalled, landed, -⟩ := call_lands inv holds
    rw [isCalled, Ends, advance_migrations] at ends
    exact landed_on_target inv holds ((all_eq_true _ _).mp careful pass found) landed current ends
  | request target object =>
    cases taken
    obtain ⟨rfl, changed⟩ := ends_of_write current ends
    simp only [Permitted, current, Requests] at permitted
    obtain ⟨-, status, held⟩ := permitted
    rcases changed with ⟨going, final⟩ | ⟨holds, free⟩
    · rw [phaseOf, status] at final
      cases going.symm.trans final
    · cases holds.symm.trans (held.symm.trans free)
  | collect target =>
    cases taken
    obtain ⟨rfl, holds⟩ := ends_of_remove current ends
    cases holds.symm.trans (permitted migration current).2
  | start | stop | report | makeVmi | removeVmi =>
    cases taken
    exact absurd ends (not_ends_of_same current rfl)

end

theorem advance_vmis (next : Option Pass) : (state.advance index next).vmis = state.vmis := by
  cases next <;> rfl

/-- Another migration is recorded only where none is in flight. -/
theorem step_starts (inv : Invariant texts state) (permitted : Permitted state action)
    (taken : step texts state action = some after) {old new : Version Value} {uid : String}
    (before : state.vmis.current () = some old) (current : after.vmis.current () = some new)
    (recorded : recordedUid new.object = some uid) (other : recordedUid old.object ≠ some uid) :
    activeMigration old.object = none := by
  have unchanged : after.vmis = state.vmis → activeMigration old.object = none := by
    intro same
    rw [same, before] at current
    cases current
    exact absurd recorded other
  have written :
      ∀ object, after.vmis = state.vmis.write () object → recordedUid object = some uid := by
    intro object same
    rw [same, write_current_self] at current
    cases current
    exact recorded
  cases action with
  | call index outcome =>
    obtain ⟨pass, found, rfl⟩ := map_eq_some_iff.mp taken
    have holds := inv.passes pass (List.mem_of_getElem? found)
    obtain ⟨middle, next, isCalled, landed, -⟩ := call_lands inv holds
    rw [isCalled, advance_vmis] at unchanged written
    cases landed with
    | patched stage isStored writes =>
      cases before.symm.trans isStored
      rcases writes.effect with preserves | ⟨-, -, free, -⟩
      · exact absurd (preserves.recorded.symm.trans (written _ rfl)) other
      · exact free
    | nothing | adopted | status | released | removed => exact unchanged rfl
  | report object =>
    cases taken
    have ⟨stored, isStored, reports⟩ := permitted
    cases before.symm.trans isStored
    exact absurd (reports.1.symm.trans (written object rfl)) other
  | makeVmi object =>
    cases before.symm.trans permitted.1
  | removeVmi =>
    cases taken
    cases remove_current_self.symm.trans current
  | start | stop | request | collect =>
    cases taken
    exact unchanged rfl

end

variable {texts : TimeText}

def fresh : State := ⟨.empty, .empty, [], []⟩

theorem fresh_invariant : Invariant texts fresh :=
  ⟨sound_empty, sound_empty, nofun, nofun, nofun, nofun⟩

theorem node_follows_machine {state : State}
    (reached : Transition.Reaches (step texts)
      (fun state action => Permitted state action ∧ Prudent texts state action) fresh state) :
    (∀ action after, Permitted state action → Prudent texts state action →
      step texts state action = some after → ∀ name migration,
        state.migrations.current name = some migration → Ends after name migration.object →
          OnTarget state (uidOf migration.object)) ∧
    ∀ action after, Permitted state action → step texts state action = some after →
      ∀ old new uid, state.vmis.current () = some old → after.vmis.current () = some new →
        recordedUid new.object = some uid → recordedUid old.object ≠ some uid →
          activeMigration old.object = none := by
  have inv : Invariant texts state := reached.invariant fresh_invariant
    fun _ _ _ inv allowed taken => step_invariant inv allowed.1 allowed.2 taken
  exact ⟨fun action after permitted careful taken name migration current ends =>
      step_on_target inv permitted careful taken current ends,
    fun action after permitted taken old new uid before current recorded other =>
      step_starts inv permitted taken before current recorded other⟩

/-- A machine on node `a`. -/
def machine : Value :=
  .object [("status", .object [("phase", .string "Running"), ("nodeName", .string "a")])]

def asked : Value := .object [("metadata", .object [("name", .string "m"), ("uid", .string "u")])]

def held : Value := setFinalizers asked [.string FINALIZER]

def begun : Value :=
  merge held (.object
    [("status", newStatus rfc3339 held (some machine) (plan rfc3339 held 0 (some machine)) 0)])

/-- The source reports that the machine is on node `b`. -/
def arrived : Value :=
  merge (merge machine (startPatch "u" "a"))
    (statePatch [("targetNode", .string "b"), ("completed", .bool true)])

/-- A user asks for the migration, it is started, and the source completes it. -/
def completes : List Action :=
  [.makeVmi machine, .request "m" asked, .start "m" ⟨1, asked⟩ (some ⟨1, machine⟩) 0,
    .call 0 .served,
    .start "m" ⟨2, held⟩ (some ⟨1, machine⟩) 0, .call 0 .served, .call 0 .served, .report arrived]

/-- The next call of the first pass makes the migration `m` final. -/
def endsNext (state : State) : Bool :=
  (state.migrations.current "m").any (fun migration => uidOf migration.object = "u" &&
    !isFinal (phaseOf migration.object)) &&
  (step rfc3339 state (.call 0 .served)).any fun after =>
    (after.migrations.current "m").any fun later => isFinal (phaseOf later.object)

theorem node_follows_machine_arrived :
    ∃ state, Transition.Reaches (step rfc3339)
        (fun state action => Permitted state action ∧ Prudent rfc3339 state action) fresh state ∧
      (state.vmis.current ()).any (recordsCompleted ·.object "u") = true ∧ OnTarget state "u" := by
  refine Transition.exists_reaches_of
    (completes ++ [.start "m" ⟨3, begun⟩ (some ⟨3, arrived⟩) 0, .call 0 .served]) (fun state =>
      endsNext state && decide (Prudent rfc3339 state (.call 0 .served)) &&
        (state.vmis.current ()).any (recordsCompleted ·.object "u"))
    (by decide +kernel) fun state reached tested => ?_
  simp only [endsNext, and_eq_true, decide_eq_true_eq] at tested
  have ⟨⟨⟨isMigration, isAfter⟩, careful⟩, completed⟩ := tested
  have ⟨migration, current, isM⟩ := (any_eq_true _ _).mp isMigration
  simp only [and_eq_true, decide_eq_true_eq, not_eq_true'] at isM
  have ⟨isUid, going⟩ := isM
  have ⟨after, taken, final⟩ := (any_eq_true _ _).mp isAfter
  have ⟨later, found, isFinal⟩ := (any_eq_true _ _).mp final
  have onTarget :=
    (node_follows_machine reached).1 (.call 0 .served) after trivial careful taken "m" migration
    current (.inl ⟨going, later, found, isFinal⟩)
  exact ⟨completed, isUid ▸ onTarget⟩

/-- The migration, deleted by its user. -/
def deleted : Value :=
  merge begun (.object [("metadata", .object [("deletionTimestamp", .string "0")])])

/-- The machine is on `b`, the migration is deleted before the VMI says so, and ends. -/
theorem node_left_behind :
    ∃ state, Transition.Reaches (step rfc3339) Permitted fresh state ∧
      (endsNext state && (state.vmis.current ()).any fun vmi => recordsCompleted vmi.object "u" &&
        decide (targetOf vmi.object = some "b") && decide (nodeOf vmi.object = some "a")) = true :=
  Transition.exists_reaches (completes ++
    [.request "m" deleted, .start "m" ⟨4, deleted⟩ (some ⟨3, arrived⟩) 0]) (by decide +kernel)

end Rustkube.VmiMigration
