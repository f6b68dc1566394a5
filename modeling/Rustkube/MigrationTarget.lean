import Rustkube.SchedulingInvariant

/- What may be on the server and not in the scheduler's feed yet. -/
namespace Rustkube.Scheduler

open Function List Json Option SchedulingState

/-- What a version holds, as its object is read by `holds`. A deleted object holds nothing. -/
def Stands (holds : Bool → Value → String → Prop) (vm : Bool) (version : Option Version)
    (node : String) : Prop :=
  ∃ found, version = some found ∧ holds vm found.object node

/-- A reading of objects that a version stamp does not change, and that writes of some purposes add
their node to, and no others. -/
structure Footprint (quantities : Quantities) (holds : Bool → Value → String → Prop)
    (adds : Purpose → Prop) : Prop where
  stamped : ∀ {vm : Bool} {object after : Value} {node : String},
    Value.Within "metadata" ["resourceVersion"] object after → holds vm after node →
      holds vm object node
  lands : ∀ {write : Write} {node : String}, write.purpose ≠ .claims → write.Made quantities →
    holds write.key.vm (write.result write.base.object) node →
      holds write.key.vm write.base.object node ∨ (adds write.purpose ∧ write.node = node)

/-- A write that was applied to the version the feed last delivered. -/
structure Landed (adds : Purpose → Prop) (key : ScheduleKey) (seen : Version) (node : String)
    (write : Write) : Prop where
  key : write.key = key
  purpose : adds write.purpose
  fate : write.fate = .applied
  base : write.base.revision = seen.revision
  node : write.node = node

/-- What the versions on their way hold is held by what the feed last delivered, or by a write that
was made from that. -/
structure State.Trail (holds : Bool → Value → String → Prop) (adds : Purpose → Prop)
    (state : State) : Prop where
  backed : ∀ key version, some version ∈ (state.cells key).queue → ∀ node,
    holds key.vm version.object node → ∃ seen, (state.cells key).seen = some seen ∧
      (holds key.vm seen.object node ∨ ∃ write ∈ state.writes, Landed adds key seen node write)
  shrinking : ∀ key, (state.cells key).queue.Pairwise fun older newer => ∀ node,
    Stands holds key.vm newer node → Stands holds key.vm older node

variable {index : Nat}

theorem exists_mem_set {P : Write → Prop} {writes : List Write} {before after : Write}
    (isBefore : writes[index]? = some before) (kept : P before → P after)
    (found : ∃ write ∈ writes, P write) : ∃ write ∈ writes.set index after, P write := by
  have ⟨write, member, holds⟩ := found
  have ⟨inside, isIndex⟩ := List.getElem?_eq_some_iff.mp isBefore
  have ⟨position, isPosition⟩ := getElem?_of_mem member
  by_cases same : index = position
  · subst same
    cases isBefore.symm.trans isPosition
    exact ⟨after, mem_set inside after, kept holds⟩
  · have elsewhere : (writes.set index after)[position]? = some write :=
      (getElem?_set_ne same).trans isPosition
    exact ⟨write, mem_of_getElem? elsewhere, holds⟩

namespace State

variable {quantities : Quantities} {plugins : Plugins} {holds : Bool → Value → String → Prop}
  {adds : Purpose → Prop} {state after : State} {key : ScheduleKey}

section

variable (trail : state.Trail holds adds)

include trail

theorem Trail.of_cells (cells : after.cells = state.cells)
    (kept : ∀ key seen node, (∃ write ∈ state.writes, Landed adds key seen node write) →
      ∃ write ∈ after.writes, Landed adds key seen node write) : after.Trail holds adds := by
  refine ⟨fun key version queued node held => ?_, fun key => ?_⟩
  · rw [cells] at queued ⊢
    have ⟨seen, isSeen, backed⟩ := trail.backed key version queued node held
    exact ⟨seen, isSeen, backed.imp_right (kept key seen node)⟩
  · rw [cells]
    exact trail.shrinking key

theorem Trail.setWrite {write changed : Write} (isWrite : state.writes[index]? = some write)
    (same : write.Same changed) (fate : write.fate = .applied → changed.fate = .applied) :
    (state.setWrite index changed).Trail holds adds :=
  trail.of_cells rfl fun _ _ _ => exists_mem_set isWrite fun landed =>
    ⟨same.key.trans landed.key, same.purpose ▸ landed.purpose, fate landed.fate,
      (congrArg Version.revision same.base).trans landed.base, same.node.trans landed.node⟩

theorem Trail.current {node : String} (held : Stands holds key.vm (state.cells key).current node) :
    (∀ older ∈ (state.cells key).queue, Stands holds key.vm older node) ∧
      ∃ seen, (state.cells key).seen = some seen ∧
        (holds key.vm seen.object node ∨ ∃ write ∈ state.writes,
            Landed adds key seen node write) := by
  have ⟨current, isCurrent, held⟩ := held
  unfold Cell.current at isCurrent
  cases last : (state.cells key).queue.getLast? with
  | none =>
    rw [last] at isCurrent
    rw [getLast?_eq_none_iff.mp last]
    exact ⟨nofun, current, isCurrent, .inl held⟩
  | some pushed =>
    rw [last] at isCurrent
    obtain rfl : pushed = some current := isCurrent
    refine ⟨fun older isOlder => ?_, trail.backed key current (mem_of_getLast? last) node held⟩
    have ⟨before, split⟩ := getLast?_eq_some_iff.mp last
    have shrinking := trail.shrinking key
    rw [split] at shrinking isOlder
    rcases mem_append.mp isOlder with early | isLast
    · exact (pairwise_append.mp shrinking).2.2 older early _ (mem_singleton_self _) node
        ⟨current, rfl, held⟩
    · rw [mem_singleton.mp isLast]
      exact ⟨current, rfl, held⟩

theorem Trail.push {version : Option Version} (less : ∀ node, Stands holds key.vm version node →
      Stands holds key.vm (state.cells key).current node) :
    (state.push key version).Trail holds adds := by
  refine ⟨fun other found queued node held => ?_, fun other => ?_⟩
  · by_cases same : other = key
    · subst same
      simp only [State.push, update_self] at queued ⊢
      rcases mem_append.mp queued with old | new
      · exact trail.backed other found old node held
      · obtain rfl := mem_singleton.mp new
        exact (trail.current (less node ⟨found, rfl, held⟩)).2
    · simp only [State.push, update_of_ne same] at queued ⊢
      exact trail.backed other found queued node held
  · by_cases same : other = key
    · subst same
      simp only [State.push, update_self]
      refine pairwise_append.mpr ⟨trail.shrinking other, pairwise_singleton .., ?_⟩
      intro older isOlder newer isNewer node held
      rw [mem_singleton.mp isNewer] at held
      exact (trail.current (less node held)).1 older isOlder
    · simp only [State.push, update_of_ne same]
      exact trail.shrinking other

theorem Trail.deliver {skipped : Nat}
    (delivered : state.deliver quantities key skipped = some after) : after.Trail holds adds := by
  obtain ⟨version, next, rfl⟩ := deliver_spec delivered
  refine ⟨fun other found queued node held => ?_, fun other => ?_⟩
  · by_cases same : other = key
    · subst same
      simp only [update_self] at queued ⊢
      -- what is still on its way holds no more than what is delivered
      have shrinking := (trail.shrinking other).sublist (drop_sublist skipped _)
      rw [Cell.drop_queue next] at shrinking
      obtain ⟨seen, rfl, held⟩ := (pairwise_cons.mp shrinking).1 _ queued node ⟨found, rfl, held⟩
      exact ⟨seen, rfl, .inl held⟩
    · simp only [update_of_ne same] at queued ⊢
      exact trail.backed other found queued node held
  · by_cases same : other = key
    · subst same
      simp only [update_self]
      exact (trail.shrinking other).sublist (drop_sublist ..)
    · simp only [update_of_ne same]
      exact trail.shrinking other

theorem Trail.fail (write : Write) : (state.fail write).Trail holds adds := by
  unfold State.fail
  split <;> exact trail.of_cells rfl fun _ _ _ found => found

theorem Trail.pass {sight : Sight}
    (passed : state.pass quantities plugins key sight = some after) : after.Trail holds adds := by
  obtain ⟨-, version, -, rfl | ⟨-, cluster, -, carried⟩⟩ := pass_spec passed
  · exact trail.of_cells rfl fun _ _ _ found => found
  · have looked : (state.look quantities key version).Trail holds adds :=
      trail.of_cells rfl fun _ _ _ found => found
    cases carried with
    | nothing => exact looked
    | reserved fits => exact looked.of_cells rfl fun _ _ _ found => found
    | sent | targeted =>
      refine looked.of_cells rfl fun _ _ _ found => found.imp fun _ holds => ?_
      exact ⟨mem_append_left _ holds.1, holds.2⟩

theorem Trail.arrive (sound : state.Sound quantities) (footprint : Footprint quantities holds adds)
    (arrived : state.arrive index = some after) : after.Trail holds adds := by
  obtain ⟨write, isWrite, onTheWay, purpose, ⟨current, version, isCurrent, same, stamped, -, rfl⟩ |
    ⟨-, rfl⟩⟩ := arrive_spec arrived
  · have member := mem_of_getElem? isWrite
    obtain ⟨empty, isSeen, isBase⟩ := (sound.origin write member).current isCurrent same
    have made := sound.made write member purpose
    have written := (Version.stamp_spec stamped).2
    have landed : Landed adds write.key current write.node { write with fate := .applied } →
        ∃ found ∈ state.writes.set index { write with fate := .applied },
        Landed adds write.key current write.node found := fun landed =>
      ⟨_, mem_set (List.getElem?_eq_some_iff.mp isWrite).1 _, landed⟩
    have others : ∀ key seen node, (∃ write ∈ state.writes, Landed adds key seen node write) →
        ∃ found ∈ state.writes.set index { write with fate := .applied },
          Landed adds key seen node found := fun _ _ _ found =>
      exists_mem_set isWrite (fun landed => by cases onTheWay.symm.trans landed.fate) found
    have cell : (state.push write.key (some version)).cells write.key =
        ⟨some current, [some version]⟩ := by
      simp [State.push, Cell.push, empty, isSeen]
    refine ⟨fun other found queued node held => ?_, fun other => ?_⟩
    · by_cases isKey : other = write.key
      · subst isKey
        rw [State.setWrite, cell] at queued ⊢
        cases mem_singleton.mp queued
        refine ⟨current, rfl, ?_⟩
        rw [← isBase] at written
        rcases footprint.lands purpose made
          (footprint.stamped (.of_assignIn written) held) with old | new
        · exact .inl (isBase ▸ old)
        · exact .inr (new.2 ▸ landed ⟨rfl, new.1, rfl, same, rfl⟩)
      · simp only [State.setWrite, State.push, update_of_ne isKey] at queued ⊢
        obtain ⟨seen, isSeen, backed⟩ := trail.backed other found queued node held
        exact ⟨seen, isSeen, backed.imp_right (others other seen node)⟩
    · by_cases isKey : other = write.key
      · subst isKey
        rw [State.setWrite, cell]
        exact pairwise_singleton ..
      · simp only [State.setWrite, State.push, update_of_ne isKey]
        exact trail.shrinking other
  · exact trail.setWrite isWrite (same_fate ..) fun applied => by
      cases onTheWay.symm.trans applied

theorem Trail.answer {ok : Bool}
    (answered : state.answer quantities index ok = some after) : after.Trail holds adds := by
  obtain ⟨write, isWrite, -, ⟨-, rfl⟩ | ⟨rfl, -⟩ | delivered⟩ := answer_spec answered
  · exact (trail.setWrite isWrite (same_answered write) id).fail write
  · exact trail.setWrite isWrite (same_answered write) id
  · exact (trail.setWrite isWrite (same_answered write) id).deliver delivered

/-- No other client adds to what an object holds. -/
def Leaves (holds : Bool → Value → String → Prop) (state : State) (key : ScheduleKey)
    (object : Value) : Prop :=
  ∀ node, holds key.vm object node → Stands holds key.vm (state.cells key).current node

theorem Trail.store (footprint : Footprint quantities holds adds) {object : Value}
    (leaves : state.Leaves holds key object)
    (stored : state.store key object = some after) : after.Trail holds adds := by
  obtain ⟨version, stamped, -, rfl⟩ := store_spec stored
  refine trail.push fun node held => ?_
  have ⟨found, isFound, held⟩ := held
  cases isFound
  exact leaves node (footprint.stamped (.of_assignIn (Version.stamp_spec stamped).2) held)

theorem Trail.step (sound : state.Sound quantities) (footprint : Footprint quantities holds adds)
    {action : Action}
    (leaves : ∀ key object, action = .write key object → state.Leaves holds key object)
    (taken : state.step quantities plugins action = some after) : after.Trail holds adds := by
  cases action with
  | write key object => exact trail.store footprint (leaves key object rfl) taken
  | delete key =>
    obtain rfl := delete_spec taken
    exact trail.push fun node held => by
      obtain ⟨found, none, -⟩ := held
      cases none
  | deliver key skipped => exact trail.deliver taken
  | pass key sight => exact trail.pass taken
  | arrive index => exact trail.arrive sound footprint taken
  | answer index ok => exact trail.answer taken

end

theorem Synced.trail (synced : state.Synced quantities) : state.Trail holds adds := by
  refine ⟨fun key version queued => ?_, fun key => ?_⟩
  · rw [synced.delivered key] at queued
    cases queued
  · rw [synced.delivered key]
    exact List.Pairwise.nil

end State

/-- The target of a machine's migration is recorded in the object. -/
def movesTo (vm : Bool) (object : Value) (node : String) : Prop := targetNode vm object = some node

def isTarget (purpose : Purpose) : Prop := purpose = .target

theorem target_footprint (quantities : Quantities) : Footprint quantities movesTo isTarget where
  stamped := by
    intro vm object after node within moves
    exact (targetNode_of_metadata within vm).symm.trans moves
  lands := fun _ made moves => made.target _ moves

/-- A target that was written from the version the feed last delivered is waited for, and
assumed. -/
def State.TargetAssumed (quantities : Quantities) (state : State) (write : Write) : Prop :=
  write.purpose = .target → write.fate ≠ .refused → ∀ version,
    (state.cells write.key).seen = some version → write.base.revision = version.revision →
      write.awaited = true ∧ ∃ shim,
        state.scheduler.targetAssumptions.lookup write.key = some (write.node, shim) ∧
        usageOf quantities write.key.vm shim =
          usageOf quantities write.key.vm (chargedAs quantities write.key.vm version.object)

def State.TargetsAssumed (quantities : Quantities) (state : State) : Prop :=
  ∀ write ∈ state.writes, state.TargetAssumed quantities write

/-- A client other than the scheduler that writes this object records no target. -/
def State.recordsNoTarget (state : State) (key : ScheduleKey) (object : Value) : Bool :=
  (targetNode key.vm object).all fun node =>
    (state.cells key).current.any fun current => targetNode key.vm current.object == some node

/-- An error for a target's write is the server's refusal, or comes after the watch event. -/
def State.targetSettled (state : State) (index : Nat) : Bool :=
  state.writes[index]?.all fun write => write.purpose != .target || write.fate == .refused ||
    !(state.cells write.key).seen.any (·.revision == write.base.revision)

namespace State

variable {quantities : Quantities} {plugins : Plugins} {state after : State} {key : ScheduleKey}

variable {version : Version} {charges : List Charge} {other : ScheduleKey} {action : Action}

namespace TargetsAssumed

variable {index : Nat} {write : Write}

theorem of_agree (assumed : state.TargetAssumed quantities write)
    (lookup : after.scheduler.targetAssumptions.lookup write.key =
      state.scheduler.targetAssumptions.lookup write.key)
    (cell : (after.cells write.key).seen = (state.cells write.key).seen) :
    after.TargetAssumed quantities write := by
  unfold TargetAssumed
  rw [lookup, cell]
  exact assumed

theorem deliver (sound : state.Sound quantities) {skipped : Nat}
    (assumed : ∀ write ∈ state.writes, write.key ≠ key → state.TargetAssumed quantities write)
    (delivered : state.deliver quantities key skipped = some after) :
    after.TargetsAssumed quantities := by
  obtain ⟨version, next, rfl⟩ := deliver_spec delivered
  have counted := sound.counted (sound.named_of_queue next)
  intro write member
  by_cases same : write.key = key
  · intro _ _ found isFound equal
    simp only [same, Function.update_self] at isFound
    have fenced := (sound.origin write member).later found
      (by rw [same, ← isFound]; exact mem_of_getElem? next)
    omega
  · exact of_agree (assumed write member same) (counted.others _ same).targetAssumptions
      (by simp [same])

variable (assumed : state.TargetsAssumed quantities) {sight : Sight}

include assumed

theorem push (version : Option Version) : (state.push key version).TargetsAssumed quantities :=
  fun write member => of_agree (assumed write member) rfl (seen_push ..)

theorem carried {cluster : ClusterState} (idle : state.idle key = true)
    (seen : (state.cells key).seen = some version)
    (carried : Carried quantities sight cluster state key version after) :
    after.TargetsAssumed quantities := by
  cases carried with
  | nothing => exact assumed
  | reserved fits => exact fun write member => of_agree (assumed write member) rfl rfl
  | sent fits fresh purpose made =>
    exact forall_mem_concat (fun write old => of_agree (assumed write old) rfl rfl)
      fun isTarget => absurd isTarget purpose
  | targeted fits fresh purpose made cost =>
    intro write member
    rcases mem_append.mp member with old | new
    · by_cases same : write.key = key
      · -- no write for this machine is waited for, so none that was made from this version is live
        intro purpose fate found isFound equal
        have waits := (assumed write old purpose fate found isFound equal).1
        cases waits.symm.trans (not_awaited_of_idle idle old same)
      · exact of_agree (assumed write old) (AList.lookup_insert_ne same) rfl
    · rw [mem_singleton.mp new]
      intro _ _ found isFound _
      rw [fresh.key] at isFound ⊢
      cases seen.symm.trans isFound
      refine ⟨fresh.awaited, _, ?_, cost.usageOf_eq _⟩
      rw [fresh.node]
      exact AList.lookup_insert _

theorem setFate (isWrite : state.writes[index]? = some write) {fate : Fate}
    (live : fate ≠ .refused → write.fate ≠ .refused) :
    (state.setWrite index { write with fate := fate }).TargetsAssumed quantities := by
  intro other member
  rcases mem_or_eq_of_mem_set member with old | rfl
  · exact of_agree (assumed other old) rfl rfl
  · intro purpose isLive
    exact assumed write (mem_of_getElem? isWrite) purpose (live isLive)

theorem arrive (arrived : state.arrive index = some after) : after.TargetsAssumed quantities := by
  obtain ⟨write, isWrite, onTheWay, -, ⟨current, version, -, -, -, -, rfl⟩ | ⟨-, rfl⟩⟩ :=
    arrive_spec arrived
  · refine setFate (assumed.push (some version)) isWrite fun _ => ?_
    rw [onTheWay]
    exact nofun
  · exact assumed.setFate isWrite fun live => absurd rfl live

theorem setAnswered (settled : write.purpose = .target → write.fate ≠ .refused →
      ∀ version, (state.cells write.key).seen = some version →
        write.base.revision ≠ version.revision) :
    (state.setWrite index { write with awaited := false }).TargetsAssumed quantities := by
  intro other member
  rcases mem_or_eq_of_mem_set member with old | rfl
  · exact of_agree (assumed other old) rfl rfl
  · intro purpose live version seen equal
    exact absurd equal (settled purpose live version seen)

variable (sound : state.Sound quantities)

include sound

theorem look (seen : (state.cells key).seen = some version) :
    (state.look quantities key version).TargetsAssumed quantities := by
  rw [look_spec sound seen]
  intro write member
  by_cases same : write.key = key
  · intro purpose fate found isFound equal
    have made := sound.made write member (by rw [purpose]; exact nofun)
    have isBase := ((sound.origin write member).seen found isFound).2 equal
    cases (same ▸ seen).symm.trans isFound
    have ⟨wants, unset⟩ := made.moving purpose
    rw [isBase] at wants unset
    have kept : (state.scheduler.see quantities write.key version.object).targetAssumptions =
        state.scheduler.targetAssumptions := by
      simp [see, migrationTarget, wants, unset]
    rw [same] at kept
    rw [kept]
    exact assumed write member purpose fate version isFound equal
  · exact of_agree (assumed write member) (see_agree same).targetAssumptions rfl

theorem pass (passed : state.pass quantities plugins key sight = some after) :
    after.TargetsAssumed quantities := by
  obtain ⟨idle, version, seen, rfl | ⟨-, cluster, -, carried⟩⟩ := pass_spec passed
  · exact assumed.look sound seen
  · exact TargetsAssumed.carried (assumed.look sound seen) idle seen carried

theorem fail (isWrite : state.writes[index]? = some write) (waits : write.awaited = true)
    (settled : state.targetSettled index = true) :
    ((state.setWrite index { write with awaited := false }).fail write).TargetsAssumed
      quantities := by
  have answered :
      (state.setWrite index { write with awaited := false }).TargetsAssumed quantities := by
    refine assumed.setAnswered fun purpose live version seen equal => ?_
    unfold targetSettled at settled
    rw [isWrite, all_some, seen] at settled
    simp [purpose, live, equal] at settled
  unfold State.fail
  split
  · exact fun other member => of_agree (answered other member) rfl rfl
  · intro other member
    by_cases same : other.key = write.key
    · intro purpose live version seen equal
      have otherWaits := (answered other member purpose live version seen equal).1
      have ⟨position, isOther⟩ := getElem?_of_mem member
      rcases getElem?_set_cases isOther with ⟨-, rfl⟩ | ⟨apart, old⟩
      · cases otherWaits
      · exact absurd (sound.single position index other write old isWrite otherWaits waits
          same).symm apart
    · exact of_agree (answered other member) (AList.lookup_erase_ne same) rfl
  · exact answered
  · exact answered

theorem answer {ok : Bool} (settled : ok = true ∨ state.targetSettled index = true)
    (answered : state.answer quantities index ok = some after) :
    after.TargetsAssumed quantities := by
  obtain ⟨write, isWrite, waits, ⟨lost, rfl⟩ | ⟨rfl, -, moved⟩ | delivered⟩ := answer_spec answered
  · rcases settled with won | settled
    · cases lost.symm.trans won
    · exact assumed.fail sound isWrite waits settled
  · exact assumed.setAnswered fun purpose _ => moved (by rw [purpose]; exact nofun)
  · refine deliver (sound.setWrite isWrite (same_answered write))
      (fun other member apart => ?_) delivered
    rcases mem_or_eq_of_mem_set member with old | rfl
    · exact of_agree (assumed other old) rfl rfl
    · exact absurd rfl apart

end TargetsAssumed

/-- The charges that a pass for `current` counts. -/
def counts (quantities : Quantities) (state : State) (current : ScheduleKey) :
    Option (List Charge) :=
  (state.cells current).seen.bind fun version =>
    (state.look quantities current version).scheduler.charges quantities current

/-- The snapshot that a pass for `current` chooses by. -/
def snapshotFor (quantities : Quantities) (state : State) (current : ScheduleKey) :
    Option ClusterState :=
  (state.cells current).seen.bind fun version =>
    (state.look quantities current version).scheduler.snapshot quantities current

theorem Sound.snapshotFor_usage (sound : state.Sound quantities) {current : ScheduleKey}
    {cluster : ClusterState} (taken : state.snapshotFor quantities current = some cluster) :
    ∃ charges, state.counts quantities current = some charges ∧
      ∀ node, cluster.usage node = (charges.map fun charge => charge.on quantities node).sum := by
  have ⟨version, seen, taken⟩ := bind_eq_some_iff.mp taken
  have ⟨charges, counted, sums⟩ := snapshot_usage (sound.look seen).accounted taken
  exact ⟨charges, bind_eq_some_iff.mpr ⟨version, seen, counted⟩, sums⟩

/-- A pass for `other` counts a workload as the scheduler knew it. -/
theorem Sound.counts_agree (sound : state.Sound quantities) (different : other ≠ key)
    (counted : state.counts quantities other = some charges) :
    ∃ looked, looked.charges quantities other = some charges ∧
      state.scheduler.Agree looked key := by
  have ⟨found, isFound, looked⟩ := bind_eq_some_iff.mp counted
  rw [look_spec sound isFound] at looked
  exact ⟨_, looked, see_agree different.symm⟩

/-- A write that the server would apply now. -/
def Pending (state : State) (write : Write) : Prop :=
  write.fate = .onTheWay ∧ ∃ current, (state.cells write.key).current = some current ∧
    write.base.revision = current.revision

/-- The target is recorded on the server, or may still come to be. -/
def MayMoveTo (state : State) (key : ScheduleKey) (node : String) : Prop :=
  Stands movesTo key.vm (state.cells key).current node ∨
    ∃ write ∈ state.writes, write.key = key ∧ write.purpose = .target ∧ write.node = node ∧
      state.Pending write

/-- A target that is on its way, or was applied unseen, is charged by what is assumed. -/
theorem TargetsAssumed.charged (sound : state.Sound quantities)
    (assumed : state.TargetsAssumed quantities) {write : Write} (member : write ∈ state.writes)
    (purpose : write.purpose = .target) (live : write.fate ≠ .refused)
    (seen : (state.cells write.key).seen = some version)
    (equal : write.base.revision = version.revision)
    (different : other ≠ write.key) (counted : state.counts quantities other = some charges) :
    Charged quantities charges write.key write.node
      (usageOf quantities write.key.vm (chargedAs quantities write.key.vm version.object)) := by
  have ⟨_, counted, agree⟩ := sound.counts_agree different counted
  obtain ⟨-, shim, lookup, cost⟩ := assumed write member purpose live version seen equal
  rw [← cost]
  refine charged_of_targetAssumption counted different.symm ?_
    (agree.targetAssumptions.trans lookup)
  -- the version still wants a target
  have made := sound.made write member (by rw [purpose]; exact nofun)
  have isBase := ((sound.origin write member).seen version seen).2 equal
  have unset := (made.moving purpose).2
  rw [isBase] at unset
  rw [agree.targets, sound.targets, seen, bind_some, migrationTarget, unset]
  rfl

theorem charged_of_mayMoveTo (sound : state.Sound quantities) (trail : state.Trail movesTo isTarget)
    (assumed : state.TargetsAssumed quantities) {node : String} (may : state.MayMoveTo key node)
    (different : other ≠ key) (counted : state.counts quantities other = some charges) :
    ∃ version, (state.cells key).seen = some version ∧
      Charged quantities charges key node
        (usageOf quantities key.vm (chargedAs quantities key.vm version.object)) := by
  rcases may with recorded | ⟨write, member, rfl, purpose, rfl, onTheWay, current, isCurrent, equal⟩
  · obtain ⟨seen, isSeen, moves | ⟨write, member, landed⟩⟩ := (trail.current recorded).2
    · have ⟨_, looked, agree⟩ := sound.counts_agree different counted
      refine ⟨seen, isSeen, charged_of_held looked (.inr ?_)⟩
      rw [agree.targets, sound.targets, isSeen, bind_some, migrationTarget,
        show targetNode key.vm seen.object = some node from moves]
      rfl
    · obtain ⟨rfl, purpose, applied, base, rfl⟩ := landed
      exact ⟨seen, isSeen, assumed.charged sound member purpose (by rw [applied]; decide) isSeen
        base different counted⟩
  · obtain ⟨-, isSeen, -⟩ := (sound.origin write member).current isCurrent equal
    exact ⟨current, isSeen, assumed.charged sound member purpose (by rw [onTheWay]; decide) isSeen
      equal different counted⟩

/-- Nobody but the scheduler records a target. -/
def othersRecordNone (state : State) : Action → Prop
  | .write key object => state.recordsNoTarget key object = true
  | _ => True

/-- Nobody but the scheduler records a target, and when the scheduler is told that its own record
failed, the server has refused it or the feed has shown it. -/
def targetsSettle (state : State) : Action → Prop
  | .write key object => state.recordsNoTarget key object = true
  | .answer index ok => ok = true ∨ state.targetSettled index = true
  | _ => True

instance (action : Action) : Decidable (state.othersRecordNone action) := by
  unfold othersRecordNone
  split <;> infer_instance

instance (action : Action) : Decidable (state.targetsSettle action) := by
  unfold targetsSettle
  split <;> infer_instance

theorem TargetsAssumed.step (sound : state.Sound quantities)
    (assumed : state.TargetsAssumed quantities) (settle : state.targetsSettle action)
    (taken : state.step quantities plugins action = some after) :
    after.TargetsAssumed quantities := by
  cases action with
  | write key object =>
    obtain ⟨version, -, -, rfl⟩ := store_spec taken
    exact assumed.push _
  | delete key =>
    obtain rfl := delete_spec taken
    exact assumed.push _
  | deliver key skipped => exact deliver sound (fun write member _ => assumed write member) taken
  | pass key sight => exact assumed.pass sound taken
  | arrive index => exact assumed.arrive taken
  | answer index ok => exact assumed.answer sound settle taken

/-- What the scheduler knows of the targets that the server may have. -/
structure Moving (quantities : Quantities) (state : State) : Prop where
  sound : state.Sound quantities
  trail : state.Trail movesTo isTarget
  assumed : state.TargetsAssumed quantities

theorem Synced.moving (synced : state.Synced quantities) : state.Moving quantities := by
  refine ⟨synced.sound, synced.trail, fun write member => ?_⟩
  rw [synced.quiet] at member
  cases member

theorem Moving.step (moving : state.Moving quantities)
    (settle : state.targetsSettle action)
    (taken : state.step quantities plugins action = some after) :
    after.Moving quantities := by
  refine ⟨moving.sound.step taken, moving.trail.step moving.sound (target_footprint quantities)
    (fun key object isWrite => ?_) taken, moving.assumed.step moving.sound settle taken⟩
  subst isWrite
  intro node moves
  have kept : state.recordsNoTarget key object = true := settle
  rw [recordsNoTarget, show targetNode key.vm object = some node from moves, all_some] at kept
  have ⟨current, isCurrent, same⟩ := (any_eq_true _ _).mp kept
  exact ⟨current, isCurrent, eq_of_beq same⟩

end State

/-- From when its target may be recorded on the server until the migration ends, a machine is
charged to the target in the snapshot of every other workload, as large as the feed last showed
it. -/
theorem migration_target_stays_charged (quantities : Quantities) (plugins : Plugins)
    (objects : List (ScheduleKey × Value)) (initial : State)
    (started : State.start quantities objects = some initial) (state : State)
    (reached : Transition.Reaches (State.step quantities plugins) State.targetsSettle initial state)
    (key : ScheduleKey) (node : String) (may : state.MayMoveTo key node) (other : ScheduleKey)
    (different : other ≠ key) (cluster : ClusterState)
    (taken : state.snapshotFor quantities other = some cluster) :
    ∃ charges version, state.counts quantities other = some charges ∧
      (∀ name, cluster.usage name = (charges.map fun charge => charge.on quantities name).sum) ∧
      (state.cells key).seen = some version ∧
      SchedulingState.Charged quantities charges key node
        (usageOf quantities key.vm (chargedAs quantities key.vm version.object)) := by
  have moving : state.Moving quantities := reached.invariant (State.start_synced started).moving
      fun _ _ _ moving settle taken => moving.step settle taken
  have ⟨charges, counted, sums⟩ := moving.sound.snapshotFor_usage taken
  have ⟨version, seen, charged⟩ :=
    State.charged_of_mayMoveTo moving.sound moving.trail moving.assumed may different counted
  exact ⟨charges, version, counted, sums, seen, charged⟩

/-- Filters that pass every node, and one score for all. -/
def anyNode : Plugins := ⟨fun _ _ _ _ => pure (), fun _ _ _ _ _ => 0⟩

def nodeOfSize (name memory : String) : Value := .object [
  ("metadata", .object [("name", .string name)]),
  ("status", .object [("allocatable", .object [("memory", .string memory)])])]

/-- A pass that sees these nodes, and no volumes. -/
def sightOf (nodes : List Value) : Sight := ⟨nodes, ⟨none, fun _ => false, []⟩, none, "", "", false⟩

def machineKey : ScheduleKey := ⟨true, ⟨"team", "db", "m"⟩⟩

def podKey (name : String) : ScheduleKey := ⟨false, ⟨"team", name, name⟩⟩

/-- A machine on the node `a` that is to be moved. -/
def migratingMachine : Value := .object [
  ("metadata", .object
    [("name", .string "db"), ("namespace", .string "team"), ("uid", .string "m")]),
  ("spec", .object [("domain", .object [("memory", .object [("guest", .string "4")])])]),
  ("status", .object [("nodeName", .string "a"), ("phase", .string "Running"),
    ("migrationState", .object [("migrationUid", .string "move")])])]

def waitingPod (name memory : String) : Value := .object [
  ("metadata", .object
    [("name", .string name), ("namespace", .string "team"), ("uid", .string name)]),
  ("spec", .object
    [("containers", .array [.object [("name", .string "main"), ("resources", .object [
    ("requests", .object [("memory", .string memory)])])]])])]

def migrating : List (ScheduleKey × Value) :=
  [(machineKey, migratingMachine), (podKey "web", waitingPod "web" "6")]

/-- A target is chosen, and the server records it. -/
def recorded : List Action :=
  [.pass machineKey (sightOf [nodeOfSize "a" "8", nodeOfSize "b" "8"]), .arrive 0]

def recordedOn (state : State) (node : String) : Bool :=
  (state.cells machineKey).current.any fun current => targetNode true current.object == some node

theorem recordedOn_mayMoveTo {state : State} {node : String}
    (recorded : recordedOn state node = true) : state.MayMoveTo machineKey node := by
  have ⟨current, isCurrent, moves⟩ := (any_eq_true _ _).mp recorded
  exact .inl ⟨current, isCurrent, eq_of_beq moves⟩

theorem migration_target_stays_charged_unseen : ∃ initial state cluster charges version,
    State.start plainNumbers migrating = some initial ∧
    Transition.Reaches (State.step plainNumbers anyNode) State.targetsSettle initial state ∧
    state.snapshotFor plainNumbers (podKey "web") = some cluster ∧
    state.counts plainNumbers (podKey "web") = some charges ∧
    (state.cells machineKey).seen = some version ∧
    SchedulingState.Charged plainNumbers charges machineKey "b"
      (usageOf plainNumbers true (schedulingShim plainNumbers version.object)) := by
  have ran : ((State.start plainNumbers migrating).bind fun initial =>
      Transition.run (State.step plainNumbers anyNode) State.targetsSettle initial recorded).any
      (fun state => recordedOn state "b" &&
        (state.snapshotFor plainNumbers (podKey "web")).isSome) = true := by decide +kernel
  have ⟨state, ran, holds⟩ := (Option.any_eq_true _ _).mp ran
  have ⟨initial, started, ran⟩ := bind_eq_some_iff.mp ran
  rw [Bool.and_eq_true] at holds
  have ⟨cluster, taken⟩ := isSome_iff_exists.mp holds.2
  have reached := Transition.Reaches.start.run recorded ran
  obtain ⟨charges, version, counted, -, seen, charged⟩ :=
    migration_target_stays_charged plainNumbers
    anyNode migrating initial started state reached machineKey "b" (recordedOn_mayMoveTo holds.1)
    (podKey "web") (by decide) cluster taken
  exact ⟨initial, state, cluster, charges, version, started, reached, taken, counted, seen, charged⟩

/-- The server records the target, but its answer is lost. The scheduler gives the target up, and
until the watch event the next pass counts nothing on it. -/
theorem migration_target_uncharged : ∃ initial state cluster,
    State.start plainNumbers migrating = some initial ∧
    Transition.Reaches (State.step plainNumbers anyNode) State.othersRecordNone initial state ∧
    state.MayMoveTo machineKey "b" ∧
    state.snapshotFor plainNumbers (podKey "web") = some cluster ∧
    cluster.usage "b" = 0 ∧
    usageOf plainNumbers true (schedulingShim plainNumbers migratingMachine) = ⟨0, 4, 0⟩ := by
  have ran : ((State.start plainNumbers migrating).bind fun initial =>
      Transition.run (State.step plainNumbers anyNode) State.othersRecordNone initial
        (recorded ++ [.answer 0 false])).any
      (fun state => recordedOn state "b" &&
        (state.snapshotFor plainNumbers (podKey "web")).any fun cluster => cluster.usage "b" == 0) =
      true := by decide +kernel
  have ⟨state, ran, holds⟩ := (Option.any_eq_true _ _).mp ran
  have ⟨initial, started, ran⟩ := bind_eq_some_iff.mp ran
  rw [Bool.and_eq_true] at holds
  have ⟨cluster, taken, empty⟩ := (Option.any_eq_true _ _).mp holds.2
  exact ⟨initial, state, cluster, started, Transition.Reaches.start.run _ ran,
    recordedOn_mayMoveTo holds.1, taken, eq_of_beq empty, by decide +kernel⟩

end Rustkube.Scheduler
