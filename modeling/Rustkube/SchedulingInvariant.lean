import Rustkube.SchedulingLoop

namespace Rustkube.Scheduler

open Cell Function List Option SchedulingState Json

variable {skipped : Nat} {version : Version}

section

theorem Version.stamp_spec {revision : Nat} {object : Value}
    (stamped : stamp revision object = some version) :
    version.revision = revision ∧
      object.assignIn "metadata" "resourceVersion" (.string (toString revision)) =
        some version.object := by
  unfold stamp at stamped
  split at stamped
  · rename_i made written
    cases stamped
    exact ⟨rfl, written⟩
  · cases stamped

/-- The versions of one object have its name, and their revisions go up. -/
structure Cell.Sound (key : ScheduleKey) (bound : Nat) (cell : Cell) : Prop where
  named : ∀ version ∈ cell.versions, Key.of? version.object = some key.key
  increasing : cell.versions.Pairwise fun older newer => older.revision < newer.revision
  bounded : ∀ version ∈ cell.versions, version.revision ≤ bound

/-- Where a write stands to the object that it is for: nothing that the feed has not delivered is as
old as what the write was made from. -/
structure Write.Origin (bound : Nat) (cell : Cell) (write : Write) : Prop where
  seen : ∀ version, cell.seen = some version → write.base.revision ≤ version.revision ∧
    (write.base.revision = version.revision → write.base = version)
  later : ∀ version, some version ∈ cell.queue → write.base.revision < version.revision
  bounded : write.base.revision ≤ bound

variable {key : ScheduleKey} {bound : Nat} {cell : Cell} {write : Write}

theorem Cell.mem_versions_of_seen (seen : cell.seen = some version) : version ∈ cell.versions := by
  simp [versions, reduceOption_mem_iff, seen]

theorem Cell.mem_versions_of_queue (queued : some version ∈ cell.queue) :
    version ∈ cell.versions := by
  simp [versions, reduceOption_mem_iff, queued]

theorem Cell.versions_push_none (cell : Cell) : (cell.push none).versions = cell.versions :=
  (reduceOption_append (cell.seen :: cell.queue) [none]).trans (append_nil _)

theorem Cell.versions_push_some (cell : Cell) (version : Version) :
    (cell.push (some version)).versions = cell.versions ++ [version] :=
  reduceOption_append (cell.seen :: cell.queue) [some version]

theorem Cell.Sound.push_none (sound : cell.Sound key bound) :
    (cell.push none).Sound key (bound + 1) := by
  constructor <;> rw [versions_push_none]
  · exact sound.named
  · exact sound.increasing
  · exact fun version member => (sound.bounded version member).trans (Nat.le_succ _)

theorem Cell.Sound.push_some (sound : cell.Sound key bound)
    (named : Key.of? version.object = some key.key) (newest : version.revision = bound + 1) :
    (cell.push (some version)).Sound key (bound + 1) := by
  constructor <;> rw [versions_push_some]
  · exact forall_mem_concat sound.named named
  · refine pairwise_append.mpr ⟨sound.increasing, pairwise_singleton .., ?_⟩
    intro older isOlder newer isNewer
    have := sound.bounded older isOlder
    rw [mem_singleton.mp isNewer]
    omega
  · have later := fun other old => (sound.bounded other old).trans (Nat.le_succ _)
    exact forall_mem_concat later (by omega)

variable {delivered : Option Version}

section

variable (next : cell.queue[skipped]? = some delivered)

include next

theorem Cell.drop_queue : cell.queue.drop skipped = delivered :: cell.queue.drop (skipped + 1) := by
  rw [drop_eq_getElem?_toList_append, next]
  rfl

theorem Cell.versions_drop :
    (⟨delivered, cell.queue.drop (skipped + 1)⟩ : Cell).versions.Sublist cell.versions := by
  unfold versions reduceOption
  rw [← drop_queue next]
  exact ((drop_sublist _ _).trans (sublist_cons_self ..)).filterMap id

theorem Cell.Sound.drop (sound : cell.Sound key bound) :
    (⟨delivered, cell.queue.drop (skipped + 1)⟩ : Cell).Sound key bound := by
  have fewer := versions_drop next
  exact ⟨fun version member => sound.named version (fewer.subset member),
    sound.increasing.sublist fewer, fun version member =>
      sound.bounded version (fewer.subset member)⟩

end

theorem Write.Origin.push (origin : write.Origin bound cell) {pushed : Option Version}
    (newest : ∀ version, pushed = some version → version.revision = bound + 1) :
    write.Origin (bound + 1) (cell.push pushed) := by
  refine ⟨origin.seen, fun version queued => ?_, origin.bounded.trans (Nat.le_succ _)⟩
  rcases mem_append.mp queued with old | new
  · exact origin.later version old
  · have := newest version (mem_singleton.mp new).symm
    have := origin.bounded
    omega

theorem Write.Origin.drop (origin : write.Origin bound cell)
    (next : cell.queue[skipped]? = some delivered) :
    write.Origin bound ⟨delivered, cell.queue.drop (skipped + 1)⟩ := by
  refine ⟨fun version isSeen => ?_, fun version queued => ?_, origin.bounded⟩
  · subst isSeen
    have := origin.later version (mem_of_getElem? next)
    exact ⟨this.le, fun same => by omega⟩
  · exact origin.later version (mem_of_mem_drop queued)

theorem Write.Origin.of_seen (sound : cell.Sound key bound) (seen : cell.seen = some write.base) :
    write.Origin bound cell := by
  have increasing := sound.increasing
  rw [versions, seen, reduceOption_cons_of_some, pairwise_cons] at increasing
  refine ⟨fun version isSeen => ?_, fun version queued => ?_, sound.bounded _
    (mem_versions_of_seen seen)⟩
  · rw [seen] at isSeen
    cases isSeen
    exact ⟨le_rfl, fun _ => rfl⟩
  · exact increasing.1 version (reduceOption_mem_iff.mpr queued)

theorem Write.Origin.current (origin : write.Origin bound cell) {current : Version}
    (isCurrent : cell.current = some current) (same : write.base.revision = current.revision) :
    cell.queue = [] ∧ cell.seen = some current ∧ write.base = current := by
  unfold Cell.current at isCurrent
  cases last : cell.queue.getLast? with
  | none =>
    rw [last] at isCurrent
    exact ⟨getLast?_eq_none_iff.mp last, isCurrent, (origin.seen _ isCurrent).2 same⟩
  | some pushed =>
    rw [last] at isCurrent
    have queued := origin.later current (isCurrent ▸ mem_of_getLast? last)
    omega

theorem Cell.current_mem (isCurrent : cell.current = some version) : version ∈ cell.versions := by
  unfold current at isCurrent
  cases last : cell.queue.getLast? with
  | none =>
    rw [last] at isCurrent
    exact mem_versions_of_seen isCurrent
  | some pushed =>
    rw [last] at isCurrent
    exact mem_versions_of_queue (isCurrent ▸ mem_of_getLast? last)

@[simp] theorem Cell.current_push (cell : Cell) (pushed : Option Version) :
    (cell.push pushed).current = pushed := by
  simp [current, push]

theorem Cell.current_drop (next : cell.queue[skipped]? = some delivered) :
    (⟨delivered, cell.queue.drop (skipped + 1)⟩ : Cell).current = cell.current := by
  have ⟨inside, _⟩ := List.getElem?_eq_some_iff.mp next
  have last : cell.queue.getLast? = (delivered :: cell.queue.drop (skipped + 1)).getLast? := by
    rw [← drop_queue next, getLast?_drop, if_neg (by omega)]
  unfold current
  rw [last, getLast?_cons]
  rfl

end

/-- What a write does to the object that it was made from. -/
structure Write.Made (quantities : Quantities) (write : Write) : Prop where
  pending : pendingWorkload write.key.vm write.base.object = true
  unplaced : write.purpose ≠ .target → placedNode write.key.vm write.base.object = none
  moving : write.purpose = .target →
    wantsMigrationTarget write.base.object = true ∧ targetNode write.key.vm write.base.object = none
  cost : usageOf quantities write.key.vm (chargedAs quantities write.key.vm
      (write.result write.base.object)) =
    usageOf quantities write.key.vm (chargedAs quantities write.key.vm write.base.object)
  placed : ∀ node, placedNode write.key.vm (write.result write.base.object) = some node →
    placedNode write.key.vm write.base.object = some node ∨ write.node = node
  target : ∀ node, targetNode write.key.vm (write.result write.base.object) = some node →
    targetNode write.key.vm write.base.object = some node ∨
      (write.purpose = .target ∧ write.node = node)

/-- The same write, further on its way. -/
structure Write.Same (before after : Write) : Prop where
  key : after.key = before.key
  purpose : after.purpose = before.purpose
  node : after.node = before.node
  base : after.base = before.base
  body : after.body = before.body
  awaited : after.awaited = true → before.awaited = true

section

variable {quantities : Quantities} {node : String} {sight : Sight} {key : Key}

theorem bind_made {body : Value} (pending : pendingWorkload false version.object = true)
    (bound : boundPod version.object node sight = some body) :
    Write.Made quantities ⟨⟨false, key⟩, .bind, node, version, body, .onTheWay, true⟩ := by
  have ⟨same, lands⟩ := boundPod_lands bound
  refine ⟨pending, fun _ => ?_, nofun, same.usageOf_eq _,
    fun other placed => .inr (lands other placed).symm, nofun⟩
  cases placed : placedNode false version.object with
  | none => rfl
  | some other => cases (pendingWorkload_pod pending).symm.trans (placedNode_pod placed)

theorem place_made (pending : pendingWorkload true version.object = true) (named : node ≠ "")
    (unplaced : nodeOf version.object = none) :
    Write.Made quantities ⟨⟨true, key⟩, .place, node, version,
      statusPatch version.object (placedStatus version.object node), .onTheWay, true⟩ := by
  have ⟨placed, target⟩ := place_lands named unplaced
  refine ⟨pending, fun _ => ?_, nofun,
    (schedulingShim_sameRequests (statusPatch_spec _ _)).usageOf_eq _,
    fun other isPlaced => .inr (placed other isPlaced).symm, fun other moving =>
      .inl (target other moving)⟩
  cases placed : placedNode true version.object with
  | none => rfl
  | some other => cases unplaced.symm.trans (placedNode_machine placed)

theorem target_made (pending : pendingWorkload true version.object = true)
    (placed : (nodeOf version.object).isSome = true) :
    Write.Made quantities ⟨⟨true, key⟩, .target, node, version, statusPatch version.object
      [("migrationState", .object [("targetNode", .string node)])], .onTheWay, true⟩ := by
  have ⟨stays, target⟩ := target_lands version.object node
  have wants : wantsMigrationTarget version.object = true := by
    simp only [pendingWorkload, Bool.and_eq_true, if_true, Bool.or_eq_true] at pending
    exact pending.2.resolve_left fun unplaced => by simp [isNone_iff_eq_none.mp unplaced] at placed
  exact ⟨pending, fun other => absurd rfl other, fun _ => ⟨wants, targetNode_of_wants wants _⟩,
    (schedulingShim_sameRequests (statusPatch_spec _ _)).usageOf_eq _,
    fun other isPlaced => .inl (stays.symm.trans isPlaced), fun other moving =>
      .inr ⟨rfl, (target other moving).symm⟩⟩

end

/-- What holds in every state that the loop comes to: the scheduler has counted what the feed has
delivered, and every write is made from a version that the feed delivered. -/
structure State.Sound (quantities : Quantities) (state : State) : Prop where
  cells : ∀ key, (state.cells key).Sound key state.revision
  placed : ∀ key, state.scheduler.placed.lookup key =
    (state.cells key).seen.bind fun version => placedWorkload quantities key.vm version.object
  targets : ∀ key, state.scheduler.targets.lookup key =
    (state.cells key).seen.bind fun version => migrationTarget quantities key.vm version.object
  accounted : state.scheduler.Accounted quantities
  origin : ∀ write ∈ state.writes, write.Origin state.revision (state.cells write.key)
  made : ∀ write ∈ state.writes, write.purpose ≠ .claims → write.Made quantities
  single : ∀ (i j : Nat) (first second : Write), state.writes[i]? = some first →
    state.writes[j]? = some second → first.awaited = true → second.awaited = true →
    first.key = second.key → i = j

namespace State

variable {quantities : Quantities} {plugins : Plugins} {state after : State} {key : ScheduleKey}

section

theorem store_spec {object : Value} (stored : state.store key object = some after) :
    ∃ version, Version.stamp (state.revision + 1) object = some version ∧
      Key.of? version.object = some key.key ∧ after = state.push key (some version) := by
  have ⟨version, stamped, stored⟩ := bind_eq_some_iff.mp stored
  split_ifs at stored with named
  exact ⟨version, stamped, named, (some.inj stored).symm⟩

theorem delete_spec (deleted : state.delete key = some after) : after = state.push key none := by
  unfold delete at deleted
  split_ifs at deleted
  exact (some.inj deleted).symm

@[simp] theorem seen_push (version : Option Version) (other : ScheduleKey) :
    ((state.push key version).cells other).seen = (state.cells other).seen := by
  by_cases same : other = key
  · subst same
    simp [push, Cell.push]
  · simp [push, same]

variable (sound : state.Sound quantities)

include sound

theorem Sound.push {version : Option Version}
    (cell : ((state.cells key).push version).Sound key (state.revision + 1))
    (newest : ∀ pushed, version = some pushed → pushed.revision = state.revision + 1) :
    (state.push key version).Sound quantities := by
  refine ⟨fun other => ?_, fun other => ?_, fun other => ?_, sound.accounted,
    fun write member => ?_, sound.made, sound.single⟩
  · by_cases same : other = key
    · subst same
      simpa [State.push] using cell
    · have before := sound.cells other
      simp only [State.push, update_of_ne same]
      exact ⟨before.named, before.increasing, fun version member =>
        (before.bounded version member).trans (Nat.le_succ _)⟩
  · rw [seen_push]
    exact sound.placed other
  · rw [seen_push]
    exact sound.targets other
  · have origin := sound.origin write member
    by_cases same : write.key = key
    · simp only [State.push, same, update_self]
      rw [same] at origin
      exact origin.push newest
    · simp only [State.push, update_of_ne same]
      exact ⟨origin.seen, origin.later, origin.bounded.trans (Nat.le_succ _)⟩

theorem Sound.store {object : Value} (stored : state.store key object = some after) :
    after.Sound quantities := by
  obtain ⟨version, stamped, named, rfl⟩ := store_spec stored
  have newest := (Version.stamp_spec stamped).1
  exact sound.push ((sound.cells key).push_some named newest) (fun _ is => some.inj is ▸ newest)

theorem Sound.delete (deleted : state.delete key = some after) : after.Sound quantities := by
  obtain rfl := delete_spec deleted
  exact sound.push (sound.cells key).push_none nofun

end

section

theorem deliver_spec (delivered : state.deliver quantities key skipped = some after) :
    ∃ version, (state.cells key).queue[skipped]? = some version ∧ after = { state with
      cells := update state.cells key
        ⟨version, (state.cells key).queue.drop (skipped + 1)⟩
      scheduler := state.scheduler.observe quantities key.vm
        ⟨(state.cells key).seen.map Version.object, version.map Version.object⟩ } := by
  obtain ⟨version, next, rfl⟩ := map_eq_some_iff.mp delivered
  exact ⟨version, next, rfl⟩

/-- What the scheduler makes of a delta of the feed: the workload is counted as it now is, the
others as they were. -/
structure Counted (quantities : Quantities) (before after : SchedulingState) (key : ScheduleKey)
    (version : Option Version) : Prop where
  placed : after.placed.lookup key =
    version.bind fun version => placedWorkload quantities key.vm version.object
  targets : after.targets.lookup key =
    version.bind fun version => migrationTarget quantities key.vm version.object
  others : ∀ other, other ≠ key → before.Agree after other

theorem counted_see (before : SchedulingState) (version : Version) :
    Counted quantities before (before.see quantities key version.object) key (some version) :=
  ⟨lookup_setEntry_self .., lookup_setEntry_self .., fun _ different => see_agree different⟩

variable (sound : state.Sound quantities)

include sound

theorem Sound.counted {version : Option Version}
    (named : ∀ found, version = some found → Key.of? found.object = some key.key) :
    Counted quantities state.scheduler (state.scheduler.observe quantities key.vm
      ⟨(state.cells key).seen.map Version.object, version.map Version.object⟩) key version := by
  have isNamed : ∀ seen, (state.cells key).seen = some seen →
      Key.of? seen.object = some key.key := fun seen isSeen =>
    (sound.cells key).named seen (mem_versions_of_seen isSeen)
  cases version with
  | some found =>
    rw [map_some, observe_new (named found rfl)]
    · exact counted_see ..
    · intro before isBefore
      obtain ⟨seen, isSeen, rfl⟩ := map_eq_some_iff.mp isBefore
      exact isNamed seen isSeen
  | none =>
    cases seen : (state.cells key).seen with
    | some old =>
      rw [map_some, map_none, observe_gone (isNamed old seen)]
      exact ⟨AList.lookup_erase .., AList.lookup_erase ..,
        fun _ different => remove_agree different⟩
    | none =>
      have placed := sound.placed key
      have targets := sound.targets key
      rw [seen] at placed targets
      exact ⟨placed, targets, fun _ _ => ⟨rfl, rfl, rfl, rfl⟩⟩

theorem Sound.named_of_queue {version : Option Version}
    (next : (state.cells key).queue[skipped]? = some version) :
    ∀ found, version = some found → Key.of? found.object = some key.key := fun found isFound =>
  (sound.cells key).named found (mem_versions_of_queue (isFound ▸ mem_of_getElem? next))

theorem Sound.deliver (delivered : state.deliver quantities key skipped = some after) :
    after.Sound quantities := by
  obtain ⟨version, next, rfl⟩ := deliver_spec delivered
  have counted := sound.counted (sound.named_of_queue next)
  refine ⟨fun other => ?_, fun other => ?_, fun other => ?_,
    observe_accounted sound.accounted _ _, fun write member => ?_, sound.made,
    sound.single⟩
  all_goals dsimp only
  · by_cases same : other = key
    · subst same
      rw [update_self]
      exact (sound.cells other).drop next
    · rw [update_of_ne same]
      exact sound.cells other
  · by_cases same : other = key
    · subst same
      rw [update_self]
      exact counted.placed
    · rw [update_of_ne same, (counted.others other same).placed]
      exact sound.placed other
  · by_cases same : other = key
    · subst same
      rw [update_self]
      exact counted.targets
    · rw [update_of_ne same, (counted.others other same).targets]
      exact sound.targets other
  · have origin := sound.origin write member
    by_cases same : write.key = key
    · rw [same] at origin
      rw [same, update_self]
      exact origin.drop next
    · rw [update_of_ne same]
      exact origin

theorem look_spec (seen : (state.cells key).seen = some version) :
    state.look quantities key version =
      { state with scheduler := state.scheduler.see quantities key version.object } := by
  have named := (sound.cells key).named version (mem_versions_of_seen seen)
  have observed : state.scheduler.observe quantities key.vm ⟨none, some version.object⟩ =
      state.scheduler.see quantities key version.object :=
    observe_new named nofun
  rw [look, observed]

theorem Sound.look (seen : (state.cells key).seen = some version) :
    (state.look quantities key version).Sound quantities := by
  rw [look_spec sound seen]
  have counted : Counted quantities state.scheduler
      (state.scheduler.see quantities key version.object) key (some version) := counted_see ..
  refine ⟨sound.cells, fun other => ?_, fun other => ?_, see_accounted sound.accounted _,
    sound.origin, sound.made, sound.single⟩
  · by_cases same : other = key
    · subst same
      rw [seen]
      exact counted.placed
    · exact (counted.others other same).placed.trans (sound.placed other)
  · by_cases same : other = key
    · subst same
      rw [seen]
      exact counted.targets
    · exact (counted.others other same).targets.trans (sound.targets other)

end

variable {write : Write} {objects : List (ScheduleKey × Value)}

section

variable {sight : Sight} {cluster : ClusterState}

/-- A write that a pass for `key` sends for `node`, made from `version`. -/
structure Fresh (key : ScheduleKey) (version : Version) (node : String) (write : Write) : Prop where
  key : write.key = key
  node : write.node = node
  base : write.base = version
  fate : write.fate = .onTheWay
  awaited : write.awaited = true

/-- What a pass does with what it decided. -/
inductive Carried (quantities : Quantities) (sight : Sight) (cluster : ClusterState) (state : State)
    (key : ScheduleKey) (version : Version) : State → Prop
  | nothing : Carried quantities sight cluster state key version state
  | reserved {node : String} {waiting : Bool}
      (fits : Fitting quantities key.vm version.object cluster (state.scheduler.assumedNode key)
        sight.nodes node) :
      Carried quantities sight cluster state key version (state.reserve key version node waiting)
  | sent {node : String} {write : Write} {waiting : Bool}
      (fits : Fitting quantities key.vm version.object cluster (state.scheduler.assumedNode key)
        sight.nodes node)
      (fresh : Fresh key version node write) (purpose : write.purpose ≠ .target)
      (made : write.purpose ≠ .claims → write.Made quantities) :
      Carried quantities sight cluster state key version
        ((state.reserve key version node waiting).send write)
  | targeted {node : String} {write : Write} {shim : Value}
      (fits : Fitting quantities key.vm version.object cluster (state.scheduler.assumedNode key)
        sight.nodes node)
      (fresh : Fresh key version node write) (purpose : write.purpose = .target)
      (made : write.Made quantities)
      (cost : SameRequests (chargedAs quantities key.vm version.object) shim) :
      Carried quantities sight cluster state key version
        ({ state with scheduler.targetAssumptions :=
            state.scheduler.targetAssumptions.insert key (node, shim) }.send write)

theorem carryOut_carried {decided : Decision} {failed : Bool}
    (pending : pendingWorkload key.vm version.object = true)
    (made : Decided quantities key.vm version.object cluster (state.scheduler.assumedNode key) sight
      decided) (done : state.carryOut quantities key version failed decided = some after) :
    Carried quantities sight cluster state key version after := by
  have ⟨vm, name⟩ := key
  cases made with
  | nothing =>
    cases done
    exact .nothing
  | bind isPod fits bound =>
    obtain rfl : vm = false := isPod
    cases done
    split_ifs
    · exact .reserved fits
    · refine .sent fits ⟨rfl, rfl, rfl, rfl, rfl⟩ ?_ fun _ => bind_made pending bound
      exact nofun
  | waiting isPod fits =>
    cases done
    split_ifs
    · exact .reserved fits
    · refine .sent fits ⟨rfl, rfl, rfl, rfl, rfl⟩ ?_ ?_
      · exact nofun
      · exact fun other => absurd rfl other
  | place isMachine named unplaced fits =>
    obtain rfl : vm = true := isMachine
    cases done
    refine .sent fits ⟨rfl, rfl, rfl, rfl, rfl⟩ ?_ fun _ => place_made pending named unplaced
    exact nofun
  | target isMachine placed fits =>
    obtain rfl : vm = true := isMachine
    obtain ⟨scheduler, reserved, rfl⟩ := map_eq_some_iff.mp done
    have ⟨shim, written, reserved⟩ := bind_eq_some_iff.mp reserved
    cases reserved
    exact .targeted fits ⟨rfl, rfl, rfl, rfl, rfl⟩ rfl (target_made pending placed)
      (withNode_sameRequests written)

/-- A pass looks again at its workload, and may then reserve a node for it. -/
theorem pass_spec (passed : state.pass quantities plugins key sight = some after) :
    state.idle key = true ∧ ∃ version, (state.cells key).seen = some version ∧
      (after = state.look quantities key version ∨
        pendingWorkload key.vm version.object = true ∧
        ∃ cluster, (state.look quantities key version).scheduler.snapshot quantities key =
          some cluster ∧
          Carried quantities sight cluster (state.look quantities key version) key version
              after) := by
  unfold pass at passed
  split_ifs at passed with idle
  have ⟨version, seen, passed⟩ := bind_eq_some_iff.mp passed
  refine ⟨idle, version, seen, ?_⟩
  split_ifs at passed with waits
  · exact .inl (some.inj passed).symm
  · have pending : pendingWorkload key.vm version.object = true := by
      simp only [Bool.or_eq_true, not_or] at waits
      simpa using waits.1
    have ⟨cluster, taken, passed⟩ := bind_eq_some_iff.mp passed
    have ⟨decided, made, done⟩ := bind_eq_some_iff.mp passed
    exact .inr ⟨pending, cluster, taken, carryOut_carried pending (decision_decided made) done⟩

theorem not_awaited_of_idle (idle : state.idle key = true)
    (member : write ∈ state.writes) (isKey : write.key = key) : write.awaited = false := by
  unfold State.idle at idle
  simp only [Bool.and_eq_true, Bool.not_eq_true', List.any_eq_false] at idle
  have free := idle.1.2 write member
  simpa [isKey] using free

variable (sound : state.Sound quantities)

include sound

theorem Sound.send {node : String} (idle : state.idle key = true)
    (seen : (state.cells key).seen = some version) (fresh : Fresh key version node write)
    (made : write.purpose ≠ .claims → write.Made quantities) :
    (state.send write).Sound quantities := by
  rw [← fresh.key] at idle seen
  rw [← fresh.base] at seen
  refine { sound with
    origin := forall_mem_concat sound.origin (.of_seen (sound.cells write.key) seen)
    made := forall_mem_concat sound.made made
    single := fun i j first second isFirst isSecond firstWaits secondWaits same => ?_ }
  rcases getElem?_concat_cases isFirst with old | ⟨rfl, rfl⟩
  · rcases getElem?_concat_cases isSecond with older | ⟨rfl, rfl⟩
    · exact sound.single i j first second old older firstWaits secondWaits same
    · cases firstWaits.symm.trans (not_awaited_of_idle idle (mem_of_getElem? old) same)
  · rcases getElem?_concat_cases isSecond with old | ⟨rfl, rfl⟩
    · cases secondWaits.symm.trans (not_awaited_of_idle idle (mem_of_getElem? old) same.symm)
    · rfl

theorem Sound.assume (assumptions : AList fun _ : ScheduleKey => Assumption)
    (targets : AList fun _ : ScheduleKey => String × Value) : Sound quantities
      { state with scheduler.assumptions := assumptions, scheduler.targetAssumptions := targets } :=
  { sound with }

theorem Sound.carried (idle : state.idle key = true) (seen : (state.cells key).seen = some version)
    (carried : Carried quantities sight cluster state key version after) :
    after.Sound quantities := by
  cases carried with
  | nothing => exact sound
  | reserved fits => exact sound.assume _ _
  | sent fits fresh purpose made => exact (sound.assume _ _).send idle seen fresh made
  | targeted fits fresh purpose made cost =>
    exact (sound.assume _ _).send idle seen fresh fun _ => made

theorem Sound.pass (passed : state.pass quantities plugins key sight = some after) :
    after.Sound quantities := by
  obtain ⟨idle, version, seen, rfl | ⟨-, cluster, -, carried⟩⟩ := pass_spec passed
  · exact sound.look seen
  · exact Sound.carried (sound.look seen) idle seen carried

end

section

variable {index : Nat} {ok : Bool}

/-- A write that the server applies is made from the object there; one that it refuses is not. -/
theorem arrive_spec (arrived : state.arrive index = some after) :
    ∃ write, state.writes[index]? = some write ∧ write.fate = .onTheWay ∧ write.purpose ≠ .claims ∧
      ((∃ current version, (state.cells write.key).current = some current ∧
          write.base.revision = current.revision ∧
          Version.stamp (state.revision + 1) (write.result current.object) = some version ∧
          Key.of? version.object = some write.key.key ∧
          after = (state.push write.key (some version)).setWrite index
            { write with fate := .applied }) ∨
        ((∀ current, (state.cells write.key).current = some current →
            write.base.revision ≠ current.revision) ∧
          after = state.setWrite index { write with fate := .refused })) := by
  have ⟨write, isWrite, arrived⟩ := bind_eq_some_iff.mp arrived
  split_ifs at arrived with goes
  refine ⟨write, isWrite, goes.1, goes.2, ?_⟩
  split at arrived
  · rename_i current matching
    have ⟨isCurrent, same⟩ := filter_eq_some_iff.mp matching
    obtain ⟨stored, isStored, rfl⟩ := map_eq_some_iff.mp arrived
    obtain ⟨version, stamped, named, rfl⟩ := store_spec isStored
    have equal := of_decide_eq_true same
    rw [current.stamped, write.base.stamped] at equal
    exact .inl ⟨current, version, isCurrent, (Text.decimal_injective (Value.string.inj equal)).symm,
      stamped, named, rfl⟩
  · rename_i mismatch
    refine .inr ⟨fun current isCurrent same => ?_, (some.inj arrived).symm⟩
    rw [isCurrent, filter_eq_none_iff] at mismatch
    refine mismatch current rfl (decide_eq_true ?_)
    rw [current.stamped, write.base.stamped, same]

theorem answer_spec (answered : state.answer quantities index ok = some after) :
    ∃ write, state.writes[index]? = some write ∧ write.awaited = true ∧
      (ok = false ∧ after = (state.setWrite index { write with awaited := false }).fail write ∨
        after = state.setWrite index { write with awaited := false } ∧ ok = true ∧
          (write.purpose ≠ .claims → ∀ version, (state.cells write.key).seen = some version →
            write.base.revision ≠ version.revision) ∨
        (state.setWrite index { write with awaited := false }).deliver quantities write.key 0 =
          some after) := by
  have ⟨write, isWrite, answered⟩ := bind_eq_some_iff.mp answered
  split_ifs at answered with waits lost isClaims applied
  · have lost : ok = false := by simpa using lost
    exact ⟨write, isWrite, waits.1, .inl ⟨lost, (some.inj answered).symm⟩⟩
  · have won : ok = true := by simpa using lost
    exact ⟨write, isWrite, waits.1,
      .inr (.inl ⟨(some.inj answered).symm, won, fun other => absurd isClaims other⟩)⟩
  · have won : ok = true := by simpa using lost
    refine ⟨write, isWrite, waits.1, .inr ?_⟩
    unfold acknowledge at answered
    dsimp only at answered
    split_ifs at answered with behind
    · exact .inr answered
    · refine .inl ⟨(some.inj answered).symm, won, fun _ version seen same => behind ?_⟩
      exact (any_eq_true _ _).mpr ⟨version, seen, decide_eq_true same.symm⟩

theorem Sound.setWrite (sound : state.Sound quantities) {changed : Write}
    (isWrite : state.writes[index]? = some write) (same : write.Same changed) :
    (state.setWrite index changed).Sound quantities := by
  have member := mem_of_getElem? isWrite
  have found : ∀ {i : Nat} {other : Write}, (state.writes.set index changed)[i]? = some other →
      ∃ before, state.writes[i]? = some before ∧ other.key = before.key ∧
        (other.awaited = true → before.awaited = true) := by
    intro i other isOther
    rcases getElem?_set_cases isOther with ⟨rfl, rfl⟩ | ⟨-, old⟩
    · exact ⟨write, isWrite, same.key, same.awaited⟩
    · exact ⟨other, old, rfl, id⟩
  refine { sound with
    origin := forall_mem_set sound.origin ?_, made := forall_mem_set sound.made fun purpose => ?_
    single := fun i j first second isFirst isSecond firstWaits secondWaits keys => ?_ }
  · have origin := sound.origin write member
    rw [← same.key] at origin
    exact ⟨same.base ▸ origin.seen, same.base ▸ origin.later, same.base ▸ origin.bounded⟩
  · have made := sound.made write member (same.purpose ▸ purpose)
    obtain ⟨_, _, _, _, _, _, _⟩ := changed
    obtain ⟨rfl, rfl, rfl, rfl, rfl, -⟩ := same
    exact { made with }
  · have ⟨one, isOne, oneKey, oneWaits⟩ := found isFirst
    have ⟨two, isTwo, twoKey, twoWaits⟩ := found isSecond
    exact sound.single i j one two isOne isTwo (oneWaits firstWaits) (twoWaits secondWaits)
      (oneKey.symm.trans (keys.trans twoKey))

theorem same_fate (write : Write) (fate : Fate) : write.Same { write with fate := fate } :=
  ⟨rfl, rfl, rfl, rfl, rfl, id⟩

theorem same_answered (write : Write) : write.Same { write with awaited := false } :=
  ⟨rfl, rfl, rfl, rfl, rfl, nofun⟩

variable (sound : state.Sound quantities)

include sound

theorem Sound.arrive (arrived : state.arrive index = some after) : after.Sound quantities := by
  obtain ⟨write, isWrite, -, -, ⟨current, version, -, -, stamped, named, rfl⟩ | ⟨-, rfl⟩⟩ :=
    arrive_spec arrived
  · have newest := (Version.stamp_spec stamped).1
    exact setWrite
      (sound.push ((sound.cells _).push_some named newest) (fun _ is => some.inj is ▸ newest))
      isWrite (same_fate ..)
  · exact sound.setWrite isWrite (same_fate ..)

theorem Sound.fail (write : Write) : (state.fail write).Sound quantities := by
  unfold State.fail
  split
  · exact sound.assume _ _
  · exact sound.assume _ _
  · exact sound
  · exact sound

theorem Sound.answer (answered : state.answer quantities index ok = some after) :
    after.Sound quantities := by
  obtain ⟨write, isWrite, -, ⟨-, rfl⟩ | ⟨rfl, -⟩ | delivered⟩ := answer_spec answered
  · exact (sound.setWrite isWrite (same_answered write)).fail write
  · exact sound.setWrite isWrite (same_answered write)
  · exact (sound.setWrite isWrite (same_answered write)).deliver delivered

end

theorem Sound.step (sound : state.Sound quantities) {action : Action}
    (taken : state.step quantities plugins action = some after) : after.Sound quantities := by
  cases action with
  | write key object => exact sound.store taken
  | delete key => exact sound.delete taken
  | deliver key skipped => exact sound.deliver taken
  | pass key sight => exact sound.pass taken
  | arrive index => exact sound.arrive taken
  | answer index ok => exact sound.answer taken

theorem empty_sound : empty.Sound quantities := by
  refine ⟨fun key => ⟨nofun, .nil, nofun⟩, fun key => rfl, fun key => rfl, fun node => rfl, nofun,
    nofun, ?_⟩
  intro i j first second isFirst
  cases (getElem?_nil).symm.trans isFirst

/-- The feeds are synchronized at the start: what is there has been delivered, and nothing is on its
way. -/
structure Synced (quantities : Quantities) (state : State) : Prop where
  sound : state.Sound quantities
  delivered : ∀ key, (state.cells key).queue = []
  quiet : state.writes = []

theorem synced_of_objects (synced : state.Synced quantities)
    (started : objects.foldlM (fun state object => do
      let stored ← state.store object.1 object.2
      stored.deliver quantities object.1 0) state = some after) : after.Synced quantities := by
  induction objects generalizing state with
  | nil =>
    cases started
    exact synced
  | cons head rest ih =>
    have ⟨next, first, started⟩ := bind_eq_some_iff.mp started
    have ⟨stored, isStored, delivered⟩ := bind_eq_some_iff.mp first
    have sound := (synced.sound.store isStored).deliver delivered
    obtain ⟨version, -, -, rfl⟩ := store_spec isStored
    obtain ⟨_, -, rfl⟩ := deliver_spec delivered
    refine ih ⟨sound, fun key => ?_, synced.quiet⟩ started
    by_cases same : key = head.1
    · subst same
      simp [push, Cell.push, synced.delivered]
    · simp [push, same, synced.delivered]

theorem start_synced {initial : State}
    (started : start quantities objects = some initial) : initial.Synced quantities :=
  synced_of_objects ⟨empty_sound, fun _ => rfl, rfl⟩ started

end State

end Rustkube.Scheduler
