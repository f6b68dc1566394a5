import Rustkube.WatchCache

namespace Rustkube.WatchCache

open WatchCache.System Storage EventStore List

/-- The event whose revision the pump is about to store. -/
def Pump.writing? : Pump → Option WatchEvent
  | .received _ event => if event.isError then none else some event
  | .recorded _ event => some event
  | _ => none

/-- The revision the freshness task is about to store. -/
def Freshness.seed? : Freshness → Option Nat
  | .seeded _ revision => some revision
  | .swapped _ revision => some revision
  | _ => none

attribute [simp] Pump.writing? Freshness.seed?

namespace System

/-- The pump and a re-seed do not overlap, and no event arrives that the snapshot already has: the
pump takes an event only when no re-seed is under way and the event is newer than the snapshot, and
a re-seed reads the datastore only when the pump is not at an event. -/
def orderly (system : System) : Action → Bool
  | .receive .next =>
    system.freshness.seed?.isNone &&
      system.store.log[system.delivered]?.all fun change =>
        decide (system.cache.snapshotRev < change.revision)
  | .freshness =>
    match system.freshness with
    | .checked _ => system.pump.writing?.isNone
    | _ => true
  | _ => true

/-- No task is between its write of the snapshot and its write of the snapshot's revision. -/
def settled (system : System) : Bool :=
  (match system.pump with | .recorded _ _ => false | _ => true) &&
    (match system.freshness with | .swapped _ _ => false | _ => true)

/-- On top of that, nobody reads between the two writes. -/
def undisturbed (system : System) : Action → Bool
  | .read _ => system.settled
  | action => system.orderly action

end System

/-- What is about to become the snapshot's revision is not below it. -/
structure Timely (system : System) : Prop where
  current : system.cache.snapshotRev ≤ system.store.revision
  writing : ∀ event, system.pump.writing? = some event →
    system.cache.snapshotRev < event.revision ∧ event.revision ≤ system.store.revision ∧
      system.freshness.seed? = none
  seeding : ∀ revision, system.freshness.seed? = some revision →
    system.cache.snapshotRev ≤ revision ∧ revision ≤ system.store.revision

namespace Timely

variable {system after : System}

theorem opened (store : EventStore) (now : Nat) : Timely (System.opened store now) where
  current := le_rfl
  writing := by simp [System.opened]
  seeding := by simp [System.opened]

variable (timely : Timely system)

include timely

theorem later {store : EventStore} (advanced : system.store.revision ≤ store.revision) :
    Timely { system with store } where
  current := Nat.le_trans timely.current advanced
  writing event isWriting := by
    have ⟨above, bounded, alone⟩ := timely.writing event isWriting
    exact ⟨above, Nat.le_trans bounded advanced, alone⟩
  seeding revision isSeed := by
    have ⟨above, bounded⟩ := timely.seeding revision isSeed
    exact ⟨above, Nat.le_trans bounded advanced⟩

theorem receive {upstream : Upstream} (orderly : system.orderly (.receive upstream) = true)
    (received : system.receive upstream = some after) :
    Timely after ∧ after.cache.snapshotRev = system.cache.snapshotRev := by
  unfold System.receive at received
  split at received
  · split at received
    · rename_i change found
      cases received
      simp only [System.orderly, found, Option.all_some, Bool.and_eq_true,
        Option.isNone_iff_eq_none, decide_eq_true_eq] at orderly
      refine ⟨⟨timely.current, ?_, timely.seeding⟩, rfl⟩
      intro event isWriting
      have isEvent := (by simpa [System.numbered] using isWriting :
        change.event (Change.replay (system.store.log.take system.delivered)) = event)
      rw [← isEvent, Change.event_revision]
      exact ⟨orderly.2, system.store.bounded change (List.mem_of_getElem? found), orderly.1⟩
    · simp at received
  · cases received
    refine ⟨⟨timely.current, ?_, timely.seeding⟩, rfl⟩
    simp [System.numbered]
  · cases received
    refine ⟨⟨timely.current, ?_, timely.seeding⟩, rfl⟩
    simp
  · split_ifs at received
    cases received
    refine ⟨⟨timely.current, ?_, timely.seeding⟩, rfl⟩
    simp
  · simp at received

theorem pumpStep (stepped : system.pumpStep = some after) :
    Timely after ∧ system.cache.snapshotRev ≤ after.cache.snapshotRev := by
  have writing := timely.writing
  unfold System.pumpStep at stepped
  split at stepped
  case h_1 => simp at stepped
  case h_2 seq event stage =>
    simp only [stage, Pump.writing?] at writing
    split_ifs at stepped with isError
    · cases stepped
      refine ⟨⟨timely.current, ?_, timely.seeding⟩, le_rfl⟩
      simp
    · cases stepped
      refine ⟨⟨timely.current, ?_, timely.seeding⟩, le_rfl⟩
      intro recorded isWriting
      have given := writing event (by simp [isError])
      cases isWriting
      rw [record_revision]
      exact given
  case h_3 seq event stage =>
    have ⟨above, bounded, alone⟩ := writing event (by rw [stage]; rfl)
    cases stepped
    refine ⟨⟨bounded, ?_, ?_⟩, Nat.le_of_lt above⟩
    · simp
    · exact fun _ isSeed => nomatch alone.symm.trans isSeed
  case h_9 => simp at stepped
  all_goals
    cases stepped
    refine ⟨⟨timely.current, ?_, timely.seeding⟩, le_rfl⟩
    simp

theorem freshnessStep (orderly : system.orderly .freshness = true)
    (stepped : system.freshnessStep = some after) :
    Timely after ∧ system.cache.snapshotRev ≤ after.cache.snapshotRev := by
  have alone := timely.writing
  have seeding := timely.seeding
  unfold System.freshnessStep at stepped
  split at stepped
  case h_1 stage =>
    split_ifs at stepped
    all_goals
      cases stepped
      refine ⟨⟨timely.current, ?_, ?_⟩, le_rfl⟩
      · exact fun event isWriting => ⟨(alone event isWriting).1, (alone event isWriting).2.1, rfl⟩
      · simp
  case h_2 current stage =>
    split_ifs at stepped
    · cases stepped
      refine ⟨⟨timely.current, ?_, ?_⟩, le_rfl⟩
      · intro event isWriting
        simp only [System.orderly, stage] at orderly
        rw [Option.isNone_iff_eq_none.mp orderly] at isWriting
        simp at isWriting
      · intro revision isSeed
        cases isSeed
        exact ⟨timely.current, le_rfl⟩
    · cases stepped
      refine ⟨⟨timely.current, ?_, ?_⟩, le_rfl⟩
      · exact fun event isWriting => ⟨(alone event isWriting).1, (alone event isWriting).2.1, rfl⟩
      · simp
  case h_3 snapshot revision stage =>
    rw [stage] at seeding
    cases stepped
    refine ⟨⟨timely.current, ?_, seeding⟩, le_rfl⟩
    intro event isWriting
    have none := (alone event isWriting).2.2
    simp [stage] at none
  case h_4 changed revision stage =>
    have ⟨above, bounded⟩ := seeding revision (by rw [stage]; rfl)
    cases stepped
    refine ⟨⟨bounded, ?_, ?_⟩, above⟩
    · intro event isWriting
      have none := (alone event isWriting).2.2
      simp [stage] at none
    · cases changed <;> simp
  case h_9 => simp at stepped
  all_goals
    cases stepped
    refine ⟨⟨timely.current, ?_, ?_⟩, le_rfl⟩
    · exact fun event isWriting => ⟨(alone event isWriting).1, (alone event isWriting).2.1, rfl⟩
    · simp

theorem step {action : Action} (orderly : system.orderly action = true)
    (stepped : system.step action = some after) :
    Timely after ∧ system.cache.snapshotRev ≤ after.cache.snapshotRev := by
  cases step_moved stepped with
  | write | writeElsewhere => exact ⟨timely.later (Nat.le_succ _), le_rfl⟩
  | receive received =>
    have ⟨kept, same⟩ := timely.receive orderly received
    exact ⟨kept, Nat.le_of_eq same.symm⟩
  | pump pumped => exact timely.pumpStep pumped
  | freshness checked => exact timely.freshnessStep orderly checked
  | elapse | watch | watcher | leave | wait | read => exact ⟨{ timely with }, le_rfl⟩

end Timely

variable {system after : System}

@[simp] theorem Read.answer_revision (objects : Keyspace) (revision : Nat) (read : Read) :
    (read.answer objects revision).revision = revision := by
  cases read <;> rfl

/-- A reader got past its wait at the revision it asked for, and was answered at no older one. -/
def Answered (system : System) : Prop :=
  match system.reader with
  | .idle => True
  | .waited minRev => minRev ≤ system.cache.snapshotRev
  | .answered minRev _ reply => minRev ≤ reply.revision

theorem Answered.keep (answered : Answered system) (same : after.reader = system.reader)
    (risen : system.cache.snapshotRev ≤ after.cache.snapshotRev) : Answered after := by
  unfold Answered at answered ⊢
  rw [same]
  cases asked : system.reader with
  | idle => trivial
  | waited minRev =>
    simp only [asked] at answered
    exact Nat.le_trans answered risen
  | answered minRev read reply => simpa only [asked] using answered

theorem Answered.step {action : Action} (answered : Answered system)
    (risen : system.cache.snapshotRev ≤ after.cache.snapshotRev)
    (stepped : system.step action = some after) : Answered after := by
  cases step_moved stepped with
  | wait reached => exact reached
  | read read waited =>
    change _ ≤ (read.answer _ _).revision
    rw [Read.answer_revision]
    rcases waited with rfl | isWaiting
    · exact Nat.zero_le _
    · simpa only [Answered, isWaiting] using answered
  | receive received => exact answered.keep (receive_others received).2.1 risen
  | pump pumped => exact answered.keep (pumpStep_others pumped).2.1 risen
  | freshness checked => exact answered.keep (freshnessStep_others checked).2.1 risen
  | write | writeElsewhere | elapse | watch | watcher | leave => exact answered.keep rfl risen

/-- The states that orderly steps lead to. -/
abbrev System.Orderly (start : System) : System → Prop :=
  Transition.Reaches System.step (fun system action => system.orderly action = true) start

theorem orderly_timely {start system : System} (timely : Timely start) (answered : Answered start)
    (reached : Orderly start system) :
    Timely system ∧ Answered system ∧ start.cache.snapshotRev ≤ system.cache.snapshotRev := by
  apply reached.invariant
  · exact ⟨timely, answered, le_rfl⟩
  · intro before action after inv orderly stepped
    have ⟨kept, risen⟩ := inv.1.step orderly stepped
    exact ⟨kept, inv.2.1.step risen stepped, Nat.le_trans inv.2.2 risen⟩

/-- While the pump and the re-seeds do not overlap and no event arrives late, the snapshot's
revision does not decrease from any state of a run to a later one, and a read is answered at a
revision not older than the one it asked for. -/
theorem snapshot_revision_rises {store : EventStore} {now : Nat} {earlier later : System}
    (reached : System.Orderly (.opened store now) earlier) (went : System.Orderly earlier later) :
    earlier.cache.snapshotRev ≤ later.cache.snapshotRev ∧
      ∀ minRev read reply, later.reader = .answered minRev read reply →
        minRev ≤ reply.revision := by
  have first := orderly_timely (.opened store now) trivial reached
  have second := orderly_timely first.1 first.2.1 went
  refine ⟨second.2.2, ?_⟩
  intro minRev read reply isAnswer
  have answered := second.2.1
  simpa only [Answered, isAnswer] using answered

/-- A run with an event, and with a re-seed once the event is in. -/
theorem snapshot_revision_rises_reseed : ∃ (earlier later : System) (reply : Reply),
    earlier.cache.snapshotRev = 5 ∧ later.cache.snapshotRev = 7 ∧
      later.reader = .answered 6 (.readOne "/registry/pods/default/a") reply ∧
      earlier.cache.snapshotRev ≤ later.cache.snapshotRev ∧ 6 ≤ reply.revision := by
  have went : Orderly (.opened (.untouched 5) 0) _ := Transition.Reaches.start.run
    [.write "/registry/pods/default/a" (some [1]), .receive .next, .pump, .pump, .pump, .pump,
      .elapse 30, .writeElsewhere, .freshness, .freshness, .wait 6, .freshness, .freshness,
      .read (.readOne "/registry/pods/default/a")] rfl
  have rises := snapshot_revision_rises .start went
  exact ⟨_, _, _, rfl, rfl, rfl, rises.1, rises.2 6 _ _ rfl⟩

/-- A key that was written and removed while the upstream watch stalled: the re-seed finds the
snapshot unchanged and takes its revision to 7, and then the late events take it back to 6. The read
had waited for 7. -/
theorem snapshot_revision_goes_back : ∃ (earlier later : System) (read : Read) (reply : Reply),
    System.Reachable (.untouched 5) 0 earlier ∧ earlier.step .pump = some later ∧
      later.cache.snapshotRev < earlier.cache.snapshotRev ∧
      ∃ answered, later.step (.read read) = some answered ∧
        answered.reader = .answered 7 read reply ∧ reply.revision < 7 :=
  ⟨_, _, .readOne "/registry/pods/default/a", _, Transition.Reaches.start.run
    [.write "/registry/pods/default/a" (some [1]), .write "/registry/pods/default/a" none,
      .elapse 30, .freshness, .freshness, .freshness, .freshness, .wait 7, .receive .next, .pump]
    rfl, rfl, by decide, _, rfl, rfl, by decide⟩

namespace System

/-- The revision whose content the snapshot has. -/
def described (system : System) : Nat :=
  match system.pump with
  | .recorded _ event => event.revision
  | _ =>
    match system.freshness with
    | .swapped _ revision => revision
    | _ => system.cache.snapshotRev

/-- The revision up to which the delivered writes go. -/
def reach (system : System) : Nat :=
  match system.pump.writing? with
  | some event => event.revision
  | none => system.cache.snapshotRev

end System

/-- The snapshot is the datastore's content at a revision, and so is what will replace it. -/
structure Consistent (system : System) : Prop where
  within : system.delivered ≤ system.store.log.length
  position : ∀ change ∈ system.store.log.take system.delivered, change.revision ≤ system.reach
  snapshot : system.cache.snapshot = system.store.contentAt system.described
  received : ∀ seq event, system.pump = .received seq event → event.isError = false →
    (record system.cache.snapshot event).1 = system.store.contentAt event.revision
  seeded : ∀ snapshot revision, system.freshness = .seeded snapshot revision →
    snapshot = system.store.contentAt revision

variable {action : Action}

namespace Consistent

variable {system after : System}

theorem opened (store : EventStore) (now : Nat) : Consistent (System.opened store now) where
  within := le_rfl
  position := by
    intro change member
    exact store.bounded change (take_subset _ _ member)
  snapshot := rfl
  received := by simp [System.opened]
  seeded := by simp [System.opened]

attribute [local simp] System.described System.reach

theorem described_le (timely : Timely system) : system.described ≤ system.store.revision := by
  unfold System.described
  split
  · rename_i seq event stage
    exact (timely.writing event (by rw [stage]; rfl)).2.1
  · split
    · rename_i changed revision stage
      exact (timely.seeding revision (by rw [stage]; rfl)).2
    · exact timely.current

variable (consistent : Consistent system)

include consistent

theorem later {store : EventStore} (timely : Timely system)
    (longer : system.store.log <+: store.log) (past : ∀ revision ≤ system.store.revision,
      store.contentAt revision = system.store.contentAt revision) :
    Consistent { system with store } where
  within := Nat.le_trans consistent.within longer.length_le
  position := by
    have ⟨rest, isLog⟩ := longer
    intro change member
    simp only [← isLog, take_append_of_le_length consistent.within] at member
    exact consistent.position change member
  snapshot := by
    rw [consistent.snapshot]
    exact (past _ (described_le timely)).symm
  received := by
    intro seq event stage notError
    have bounded := (timely.writing event (by rw [stage]; simp [notError])).2.1
    rw [consistent.received seq event stage notError]
    exact (past _ bounded).symm
  seeded := by
    intro snapshot revision stage
    have bounded := (timely.seeding revision (by rw [stage]; rfl)).2
    rw [consistent.seeded snapshot revision stage]
    exact (past _ bounded).symm

/-- A step that leaves the snapshot alone. -/
theorem carry (store : after.store = system.store) (delivered : after.delivered = system.delivered)
    (snapshot : after.cache.snapshot = system.cache.snapshot) (reach : system.reach ≤ after.reach)
    (described : after.described = system.described)
    (received : ∀ seq event, after.pump = .received seq event → event.isError = false →
      system.pump = .received seq event)
    (seeded : ∀ snapshot revision, after.freshness = .seeded snapshot revision →
      snapshot = system.store.contentAt revision) : Consistent after where
  within := by rw [delivered, store]; exact consistent.within
  position := by
    intro change member
    rw [delivered, store] at member
    exact Nat.le_trans (consistent.position change member) reach
  snapshot := by rw [snapshot, store, described]; exact consistent.snapshot
  received := by
    intro seq event stage notError
    rw [snapshot, store]
    exact consistent.received seq event (received seq event stage notError) notError
  seeded := by rw [store]; exact seeded

/-- The pump takes an event that the snapshot does not have yet. -/
theorem taking {change : Change} (receiving : system.pump = .receiving)
    (found : system.store.log[system.delivered]? = some change)
    (alone : system.freshness.seed? = none) (newer : system.cache.snapshotRev < change.revision)
    (before : Keyspace) :
    Consistent ({ system with delivered := system.delivered + 1 }.numbered
      (change.event before)) := by
  have position : ∀ earlier ∈ system.store.log.take system.delivered,
      earlier.revision ≤ system.cache.snapshotRev := by
    simpa only [System.reach, receiving, Pump.writing?] using consistent.position
  have described : system.described = system.cache.snapshotRev := by
    simp only [System.described, receiving]
    split
    · rename_i stage
      simp [stage] at alone
    · rfl
  constructor
  · exact (List.getElem?_eq_some_iff.mp found).1
  · intro earlier member
    simp only [System.reach, System.numbered, Pump.writing?, Change.event_isError,
      Bool.false_eq_true, if_false, Change.event_revision]
    simp only [System.numbered, take_add_one, found, Option.toList_some] at member
    rcases mem_append.mp member with old | isLast
    · exact Nat.le_of_lt (Nat.lt_of_le_of_lt (position earlier old) newer)
    · exact Nat.le_of_eq (congrArg Change.revision (mem_singleton.mp isLast))
  · have snapshot := consistent.snapshot
    rw [described] at snapshot
    simp only [System.described, System.numbered]
    split
    · rename_i stage
      simp [stage] at alone
    · exact snapshot
  · intro seq event stage notError
    simp only [System.numbered, Pump.received.injEq] at stage
    rw [← stage.2, Change.event_revision]
    change (record system.cache.snapshot _).1 = system.store.contentAt _
    rw [record_snapshot, contentAt_next found position newer, consistent.snapshot, described]
  · exact consistent.seeded

theorem receive {upstream : Upstream} (orderly : system.orderly (.receive upstream) = true)
    (received : system.receive upstream = some after) : Consistent after := by
  unfold System.receive at received
  split at received
  · rename_i receiving
    split at received
    · rename_i change found
      cases received
      simp only [System.orderly, found, Option.all_some, Bool.and_eq_true,
        Option.isNone_iff_eq_none, decide_eq_true_eq] at orderly
      exact consistent.taking receiving found orderly.1 orderly.2 _
    · simp at received
  · rename_i receiving
    cases received
    refine consistent.carry rfl rfl rfl ?_ ?_ ?_ consistent.seeded
    · simp [System.numbered, receiving]
    · simp [System.numbered, receiving]
    · intro seq event stage notError
      simp only [System.numbered, Pump.received.injEq] at stage
      simp [← stage.2] at notError
  · rename_i receiving
    cases received
    refine consistent.carry rfl rfl rfl ?_ ?_ ?_ consistent.seeded
    all_goals simp [receiving]
  · rename_i receiving
    split_ifs at received
    cases received
    refine consistent.carry rfl rfl rfl ?_ ?_ ?_ consistent.seeded
    all_goals simp [receiving]
  · simp at received

variable (timely : Timely system)

include timely

theorem pumpStep (stepped : system.pumpStep = some after) : Consistent after := by
  unfold System.pumpStep at stepped
  split at stepped
  case h_1 => simp at stepped
  case h_2 seq event stage =>
    split_ifs at stepped with isError
    · cases stepped
      refine consistent.carry rfl rfl rfl ?_ ?_ ?_ consistent.seeded
      all_goals simp [stage, isError]
    · cases stepped
      have recorded := consistent.received seq event stage (by simpa using isError)
      have position := consistent.position
      simp only [System.reach, stage, Pump.writing?, isError] at position
      refine ⟨consistent.within, ?_, ?_, ?_, consistent.seeded⟩
      · simpa using position
      · simpa using recorded
      · simp
  case h_3 seq event stage =>
    have ⟨above, bounded, alone⟩ := timely.writing event (by rw [stage]; rfl)
    cases stepped
    refine consistent.carry rfl rfl rfl ?_ ?_ ?_ consistent.seeded
    · simp [stage]
    · simp only [System.described, stage]
      split
      · rename_i swapped
        simp [swapped] at alone
      · rfl
    · simp
  case h_9 => simp at stepped
  all_goals
    rename_i stage
    cases stepped
    refine consistent.carry rfl rfl rfl ?_ ?_ ?_ consistent.seeded
    all_goals simp [stage, PrefixCache.report]

theorem freshnessStep (stepped : system.freshnessStep = some after) : Consistent after := by
  -- while a seed is under way the pump is at no event
  have idle {revision : Nat} (isSeed : system.freshness.seed? = some revision) :
      system.pump.writing? = none := by
    cases isWriting : system.pump.writing? with
    | none => rfl
    | some event =>
      have alone := (timely.writing event isWriting).2.2
      rw [isSeed] at alone
      simp at alone
  have notRecorded (none : system.pump.writing? = none) (seq : Nat) (event : WatchEvent) :
      system.pump ≠ .recorded seq event := by
    intro stage
    simp [stage] at none
  unfold System.freshnessStep at stepped
  split at stepped
  case h_1 stage =>
    split_ifs at stepped
    all_goals
      cases stepped
      refine consistent.carry rfl rfl rfl le_rfl ?_ (fun _ _ same _ => same) ?_
      all_goals simp [stage]
  case h_2 current stage =>
    split_ifs at stepped
    · cases stepped
      refine consistent.carry rfl rfl rfl le_rfl ?_ (fun _ _ same _ => same) ?_
      · simp [stage]
      · intro snapshot revision seeded
        simp only [Freshness.seeded.injEq] at seeded
        rw [← seeded.1, ← seeded.2]
    · cases stepped
      refine consistent.carry rfl rfl rfl le_rfl ?_ (fun _ _ same _ => same) ?_
      all_goals simp [stage]
  case h_3 snapshot revision stage =>
    have none := idle (by rw [stage]; rfl : system.freshness.seed? = some revision)
    cases stepped
    refine ⟨consistent.within, consistent.position, ?_, ?_, by simp⟩
    · have seeded := consistent.seeded snapshot revision stage
      simp only [System.described]
      split
      · rename_i recorded
        exact absurd recorded (notRecorded none _ _)
      · exact seeded
    · intro seq event received notError
      change system.pump = _ at received
      simp [received, notError] at none
  case h_4 changed revision stage =>
    have none := idle (by rw [stage]; rfl : system.freshness.seed? = some revision)
    have ⟨above, bounded⟩ := timely.seeding revision (by rw [stage]; rfl)
    cases stepped
    refine consistent.carry rfl rfl rfl ?_ ?_ (fun _ _ same _ => same) ?_
    · simpa only [System.reach, none] using above
    · simp only [System.described, stage]
      split
      · rename_i recorded
        exact absurd recorded (notRecorded none _ _)
      · cases changed <;> rfl
    · cases changed <;> simp
  case h_9 => simp at stepped
  all_goals
    rename_i stage
    cases stepped
    refine consistent.carry rfl rfl rfl le_rfl ?_ (fun _ _ same _ => same) ?_
    all_goals simp [stage, PrefixCache.report]

theorem step (orderly : system.orderly action = true) (stepped : system.step action = some after) :
    Consistent after := by
  cases step_moved stepped with
  | write key value =>
    exact consistent.later timely (prefix_append _ _) fun revision past =>
      contentAt_write past key value
  | writeElsewhere =>
    exact consistent.later timely (prefix_refl _) fun _ _ => rfl
  | receive received => exact consistent.receive orderly received
  | pump pumped => exact consistent.pumpStep timely pumped
  | freshness checked => exact consistent.freshnessStep timely checked
  | elapse | watch | watcher | leave | wait | read => exact { consistent with }

end Consistent

/-- What a reader was given is what the datastore holds at the revision it was given with. -/
def Served (system : System) : Prop :=
  match system.reader with
  | .answered _ read reply =>
    reply.revision ≤ system.store.revision ∧
      reply = read.answer (system.store.contentAt reply.revision) reply.revision
  | _ => True

variable {system after : System}

theorem Served.keep (served : Served system) (same : after.reader = system.reader)
    (advanced : system.store.revision ≤ after.store.revision)
    (past : ∀ revision ≤ system.store.revision,
      after.store.contentAt revision = system.store.contentAt revision) : Served after := by
  unfold Served at served ⊢
  rw [same]
  cases asked : system.reader with
  | idle | waited => trivial
  | answered minRev read reply =>
    simp only [asked] at served ⊢
    rw [past _ served.1]
    exact ⟨Nat.le_trans served.1 advanced, served.2⟩

theorem System.described_of_settled (settled : system.settled = true) :
    system.described = system.cache.snapshotRev := by
  simp only [System.settled, Bool.and_eq_true] at settled
  unfold System.described
  split
  · rename_i recorded
    simp [recorded] at settled
  · split
    · rename_i swapped
      simp [swapped] at settled
    · rfl

theorem Served.read (consistent : Consistent system) (timely : Timely system)
    (settled : system.settled = true) (read : Read) (minRev : Nat) :
    Served { system with
      reader := .answered minRev read
        (read.answer system.cache.snapshot system.cache.snapshotRev) } := by
  have snapshot := consistent.snapshot
  rw [described_of_settled settled] at snapshot
  simp only [Served, Read.answer_revision]
  exact ⟨timely.current, by rw [snapshot]⟩

theorem Served.step (served : Served system) (consistent : Consistent system)
    (timely : Timely system) (undisturbed : system.undisturbed action = true)
    (stepped : system.step action = some after) : Served after := by
  have still {other : System} (same : other.reader = system.reader)
      (store : other.store = system.store) : Served other := by
    apply served.keep same
    · exact Nat.le_of_eq (by rw [store])
    · intro revision _
      rw [store]
  cases step_moved stepped with
  | read read waited => exact .read consistent timely undisturbed read _
  | wait reached => trivial
  | write key value =>
    exact served.keep rfl (Nat.le_succ _) fun revision past => contentAt_write past key value
  | writeElsewhere => exact served.keep rfl (Nat.le_succ _) fun _ _ => rfl
  | receive received =>
    exact still (receive_others received).2.1 (receive_others received).2.2.2
  | pump pumped =>
    exact still (pumpStep_others pumped).2.1 (pumpStep_others pumped).2.2.2
  | freshness checked =>
    exact still (freshnessStep_others checked).2.1 (freshnessStep_others checked).2.2.2.1
  | elapse | watch | watcher | leave => exact still rfl rfl

/-- The states that undisturbed steps lead to. -/
abbrev System.Undisturbed (start : System) : System → Prop :=
  Transition.Reaches System.step (fun system action => system.undisturbed action = true) start

/-- While the pump and the re-seeds do not overlap, no event arrives late, and nobody reads between
the two writes of a task, everything served from the cache is what the datastore holds at the
revision it is served with. -/
theorem served_is_stored {store : EventStore} {now : Nat} {system : System}
    (reached : System.Undisturbed (.opened store now) system) {minRev : Nat} {read : Read}
    {reply : Reply} (isAnswer : system.reader = .answered minRev read reply) :
    reply = read.answer (system.store.contentAt reply.revision) reply.revision := by
  have inv : Timely system ∧ Consistent system ∧ Served system := by
    apply reached.invariant
    · exact ⟨.opened store now, .opened store now, trivial⟩
    · intro before action after inv undisturbed stepped
      have orderly : before.orderly action = true := by
        cases action <;> first | exact undisturbed | rfl
      exact ⟨(inv.1.step orderly stepped).1, inv.2.1.step inv.1 orderly stepped,
        inv.2.2.step inv.2.1 inv.1 undisturbed stepped⟩
  have served := inv.2.2
  simp only [Served, isAnswer] at served
  exact served.2

/-- A page with an object that was written after the cache was opened. -/
theorem served_is_stored_page : ∃ (system : System) (page : Storage.CachePage),
    system.reader = .answered 6 (.readPage "/registry/pods/default/" 10 none) (.page page) ∧
      page.items.length = 1 ∧ page.revision = 6 ∧
      Reply.page page = (Read.readPage "/registry/pods/default/" 10 none).answer
        (system.store.contentAt 6) 6 := by
  have reached : Undisturbed (.opened (.untouched 5) 0) _ := Transition.Reaches.start.run
    [.write "/registry/pods/default/a" (some [1]), .receive .next, .pump, .pump, .wait 6,
      .read (.readPage "/registry/pods/default/" 10 none)] rfl
  exact ⟨_, _, rfl, rfl, rfl, served_is_stored reached rfl⟩

/-- A page read between the pump's two writes: it has the object of revision 6 and says that it is
of revision 5, where the datastore has nothing. -/
theorem served_before_revision : ∃ (system : System) (page : Storage.CachePage),
    System.Reachable (.untouched 5) 0 system ∧
      system.reader = .answered 5 (.readPage "/registry/pods/default/" 10 none) (.page page) ∧
      page.revision = 5 ∧ page.items.length = 1 ∧
      Reply.page page ≠ (Read.readPage "/registry/pods/default/" 10 none).answer
        (system.store.contentAt 5) 5 := by
  refine ⟨_, _, Transition.Reaches.start.run
    [.write "/registry/pods/default/a" (some [1]), .receive .next, .pump, .wait 5,
      .read (.readPage "/registry/pods/default/" 10 none)] rfl, rfl, rfl, rfl, ?_⟩
  intro same
  have pages := congrArg CachePage.items (Reply.page.inj same)
  exact absurd (congrArg List.length pages) (by decide)

end Rustkube.WatchCache
