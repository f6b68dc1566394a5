import Rustkube.MigrationTarget

namespace Rustkube.Scheduler

open Cell List Option SchedulingState Json NodeUsage

/-- A workload is on the node, or moving to it. -/
def isOn (vm : Bool) (object : Value) (node : String) : Prop :=
  placedNode vm object = some node ∨ targetNode vm object = some node

instance (vm : Bool) (object : Value) (node : String) : Decidable (isOn vm object node) :=
  inferInstanceAs (Decidable (_ ∨ _))

theorem isOn_footprint (quantities : Quantities) : Footprint quantities isOn (· ≠ .claims) where
  stamped := by
    intro vm object after node within held
    rw [isOn, placedNode_of_metadata within, targetNode_of_metadata within] at held
    exact held
  lands := by
    intro write node purpose made held
    rcases held with placed | target
    · rcases made.placed node placed with old | new
      · exact .inl (.inl old)
      · exact .inr ⟨purpose, new⟩
    · rcases made.target node target with old | ⟨-, new⟩
      · exact .inl (.inr old)
      · exact .inr ⟨purpose, new⟩

variable {node : String} {cluster : ClusterState} {sight : Sight} {write : Write} {index : Nat}
  {version : Version}

section

/-- A placement that was written from the version the feed last delivered is assumed. -/
def State.PlacementAssumed (state : State) (write : Write) : Prop :=
  (write.purpose = .bind ∨ write.purpose = .place) → ∀ version,
    (state.cells write.key).seen = some version → write.base.revision = version.revision →
      ∃ assumption, state.scheduler.assumptions.lookup write.key = some assumption ∧
        assumption.node = write.node ∧ assumption.object = version.object

def State.PlacementsAssumed (state : State) : Prop :=
  ∀ write ∈ state.writes, state.PlacementAssumed write

/-- When the claims of a Pod could not be written, no bind of the Pod was sent from the version that
the feed last delivered. -/
def State.claimsSettled (state : State) (index : Nat) : Bool :=
  state.writes[index]?.all fun write => write.purpose != .claims || state.writes.all fun other =>
    other.key != write.key || (other.purpose != .bind && other.purpose != .place) ||
      !(state.cells write.key).seen.any (·.revision == other.base.revision)

variable {quantities : Quantities} {plugins : Plugins} {state after : State} {key : ScheduleKey}

namespace State.PlacementsAssumed

theorem of_agree (assumed : state.PlacementAssumed write)
    (lookup : after.scheduler.assumptions.lookup write.key =
      state.scheduler.assumptions.lookup write.key)
    (cell : (after.cells write.key).seen = (state.cells write.key).seen) :
    after.PlacementAssumed write := by
  unfold PlacementAssumed
  rw [lookup, cell]
  exact assumed

variable (assumed : state.PlacementsAssumed)

include assumed

theorem push (version : Option Version) : (state.push key version).PlacementsAssumed :=
  fun write member => of_agree (assumed write member) rfl (seen_push ..)

theorem reserve {waiting : Bool} (seen : (state.cells key).seen = some version)
    (held : ∀ reserved, state.scheduler.assumedNode key = some reserved → node = reserved) :
    (state.reserve key version node waiting).PlacementsAssumed := by
  intro write member
  by_cases same : write.key = key
  · intro purpose found isFound equal
    obtain ⟨assumption, lookup, isNode, -⟩ := assumed write member purpose found isFound equal
    rw [same] at lookup isFound ⊢
    cases seen.symm.trans isFound
    refine ⟨⟨node, version.object, waiting⟩, AList.lookup_insert _, ?_, rfl⟩
    rw [← isNode]
    exact held assumption.node (by rw [assumedNode, lookup]; rfl)
  · exact of_agree (assumed write member) (AList.lookup_insert_ne same) rfl

theorem carried (seen : (state.cells key).seen = some version)
    (carried : Carried quantities sight cluster state key version after) :
    after.PlacementsAssumed := by
  cases carried with
  | nothing => exact assumed
  | reserved fits => exact assumed.reserve seen fits.held
  | sent fits fresh purpose made =>
    refine forall_mem_concat (fun write old =>
      of_agree (assumed.reserve seen fits.held write old) rfl rfl) fun _ found isFound _ => ?_
    rw [fresh.key] at isFound ⊢
    cases seen.symm.trans isFound
    exact ⟨_, AList.lookup_insert _, fresh.node.symm, rfl⟩
  | targeted fits fresh purpose made cost =>
    refine forall_mem_concat (fun write old => of_agree (assumed write old) rfl rfl) fun other => ?_
    rcases other with is | is <;> cases purpose.symm.trans is

theorem setWrite {changed : Write} (isWrite : state.writes[index]? = some write)
    (same : write.Same changed) : (state.setWrite index changed).PlacementsAssumed := by
  intro other member
  rcases mem_or_eq_of_mem_set member with old | rfl
  · exact of_agree (assumed other old) rfl rfl
  · intro purpose version seen equal
    rw [same.key] at seen ⊢
    rw [same.purpose] at purpose
    rw [same.base] at equal
    rw [same.node]
    exact assumed write (mem_of_getElem? isWrite) purpose version seen equal

theorem arrive (arrived : state.arrive index = some after) : after.PlacementsAssumed := by
  obtain ⟨write, isWrite, -, -, ⟨current, version, -, -, -, -, rfl⟩ | ⟨-, rfl⟩⟩ :=
    arrive_spec arrived
  · exact setWrite (assumed.push (some version)) isWrite (same_fate ..)
  · exact assumed.setWrite isWrite (same_fate ..)

theorem fail (isWrite : state.writes[index]? = some write)
    (settled : state.claimsSettled index = true) :
    ((state.setWrite index { write with awaited := false }).fail write).PlacementsAssumed := by
  have answered := assumed.setWrite isWrite (same_answered write)
  unfold State.fail
  split
  · rename_i isClaims
    intro other member
    by_cases same : other.key = write.key
    · intro purpose version seen equal
      unfold claimsSettled at settled
      rw [isWrite, all_some] at settled
      simp only [isClaims, bne_self_eq_false, Bool.false_or, List.all_eq_true] at settled
      rcases mem_or_eq_of_mem_set member with old | rfl
      · have apart := settled other old
        rw [same] at seen
        rw [show (state.cells write.key).seen = some version from seen] at apart
        rcases purpose with is | is <;> simp [same, is, equal] at apart
      · rcases purpose with is | is <;> cases isClaims.symm.trans is
    · exact of_agree (answered other member) (AList.lookup_erase_ne same) rfl
  · exact fun other member => of_agree (answered other member) rfl rfl
  · exact answered
  · exact answered

variable (sound : state.Sound quantities)

include sound

theorem deliver {skipped : Nat} (delivered : state.deliver quantities key skipped = some after) :
    after.PlacementsAssumed := by
  obtain ⟨version, next, rfl⟩ := deliver_spec delivered
  have counted := sound.counted (sound.named_of_queue next)
  intro write member
  by_cases same : write.key = key
  · intro _ found isFound equal
    simp only [same, Function.update_self] at isFound
    have fenced := (sound.origin write member).later found
      (by rw [same, ← isFound]; exact mem_of_getElem? next)
    omega
  · exact of_agree (assumed write member) (counted.others _ same).assumptions (by simp [same])

theorem look (seen : (state.cells key).seen = some version) :
    (state.look quantities key version).PlacementsAssumed := by
  rw [look_spec sound seen]
  intro write member
  by_cases same : write.key = key
  · intro purpose found isFound equal
    have made := sound.made write member
      (by rcases purpose with is | is <;> rw [is] <;> exact nofun)
    have isBase := ((sound.origin write member).seen found isFound).2 equal
    cases (same ▸ seen).symm.trans isFound
    have ⟨assumption, lookup, isNode, isObject⟩ :=
      assumed write member purpose version isFound equal
    have pending := made.pending
    rw [isBase] at pending
    rw [same] at lookup pending ⊢
    exact ⟨assumption, lookup_seenAssumptions_self pending lookup isObject, isNode, isObject⟩
  · exact of_agree (assumed write member) (see_agree same).assumptions rfl

theorem pass (passed : state.pass quantities plugins key sight = some after) :
    after.PlacementsAssumed := by
  obtain ⟨-, version, seen, rfl | ⟨-, cluster, -, carried⟩⟩ := pass_spec passed
  · exact assumed.look sound seen
  · exact PlacementsAssumed.carried (assumed.look sound seen) seen carried

theorem answer {ok : Bool} (settled : ok = true ∨ state.claimsSettled index = true)
    (answered : state.answer quantities index ok = some after) : after.PlacementsAssumed := by
  obtain ⟨write, isWrite, -, ⟨lost, rfl⟩ | ⟨rfl, -⟩ | delivered⟩ := answer_spec answered
  · rcases settled with won | settled
    · cases lost.symm.trans won
    · exact assumed.fail isWrite settled
  · exact assumed.setWrite isWrite (same_answered write)
  · exact deliver (assumed.setWrite isWrite (same_answered write))
      (sound.setWrite isWrite (same_answered write)) delivered

end State.PlacementsAssumed

end

variable {object : Value}

section

variable (quantities : Quantities)

/-- What a workload takes of a node it is on. -/
def cost (vm : Bool) (object : Value) : NodeUsage :=
  usageOf quantities vm (chargedAs quantities vm object)

variable {quantities} {plugins : Plugins} {state after : State} {key : ScheduleKey}

theorem cost_of_metadata {after : Value} {inner : List String}
    (within : Value.Within "metadata" inner object after) (vm : Bool) :
    cost quantities vm after = cost quantities vm object := by
  cases vm with
  | false => exact (SameRequests.of_metadata within).usageOf_eq _
  | true => exact (schedulingShim_sameRequests (within.outside "spec" (by decide))).usageOf_eq _

/-- What the workload on the server asks for. -/
def State.demand (quantities : Quantities) (state : State) (key : ScheduleKey) : NodeUsage :=
  ((state.cells key).current.map fun version => cost quantities key.vm version.object).getD 0

/-- The versions of an object ask for the same. -/
def State.RequestsKept (quantities : Quantities) (state : State) : Prop :=
  ∀ key, ∀ first ∈ (state.cells key).versions, ∀ second ∈ (state.cells key).versions,
    cost quantities key.vm first.object = cost quantities key.vm second.object

/-- An object written under a name asks for what it asked for. -/
def State.keepsRequests (quantities : Quantities) (state : State) (key : ScheduleKey)
    (object : Value) : Bool :=
  (state.cells key).versions.all fun version =>
    cost quantities key.vm object == cost quantities key.vm version.object

namespace State.RequestsKept

variable (kept : state.RequestsKept quantities)

include kept

theorem of_subset (fewer : ∀ key, (after.cells key).versions ⊆ (state.cells key).versions) :
    after.RequestsKept quantities := fun key first isFirst second isSecond =>
  kept key first (fewer key isFirst) second (fewer key isSecond)

theorem push_some (same : ∀ old ∈ (state.cells key).versions,
      cost quantities key.vm version.object = cost quantities key.vm old.object) :
    (state.push key (some version)).RequestsKept quantities := by
  intro other first isFirst second isSecond
  by_cases isKey : other = key
  · subst isKey
    simp only [push, Function.update_self, versions_push_some, mem_append,
      mem_singleton] at isFirst isSecond
    rcases isFirst with old | rfl
    · rcases isSecond with older | rfl
      · exact kept other first old second older
      · exact (same first old).symm
    · rcases isSecond with old | rfl
      · exact same second old
      · rfl
  · simp only [push, Function.update_of_ne isKey] at isFirst isSecond
    exact kept other first isFirst second isSecond

theorem push_none : (state.push key none).RequestsKept quantities := by
  refine kept.of_subset fun other version member => ?_
  by_cases isKey : other = key
  · subst isKey
    simpa only [push, Function.update_self, versions_push_none] using member
  · simpa only [push, Function.update_of_ne isKey] using member

theorem deliver {skipped : Nat} (delivered : state.deliver quantities key skipped = some after) :
    after.RequestsKept quantities := by
  obtain ⟨version, next, rfl⟩ := deliver_spec delivered
  refine kept.of_subset fun other found member => ?_
  by_cases isKey : other = key
  · subst isKey
    simp only [Function.update_self] at member
    exact (versions_drop next).subset member
  · simpa only [Function.update_of_ne isKey] using member

theorem demand_eq (seen : (state.cells key).seen = some version) {current : Version}
    (isCurrent : (state.cells key).current = some current) :
    state.demand quantities key = cost quantities key.vm version.object := by
  rw [demand, isCurrent]
  exact kept key current (current_mem isCurrent) version (mem_versions_of_seen seen)

theorem store (same : state.keepsRequests quantities key object = true)
    (stored : state.store key object = some after) : after.RequestsKept quantities := by
  obtain ⟨version, stamped, -, rfl⟩ := store_spec stored
  refine kept.push_some fun old member => ?_
  rw [cost_of_metadata (.of_assignIn (Version.stamp_spec stamped).2)]
  exact eq_of_beq (List.all_eq_true.mp same old member)

theorem arrive (sound : state.Sound quantities) (arrived : state.arrive index = some after) :
    after.RequestsKept quantities := by
  obtain ⟨write, isWrite, -, purpose,
      ⟨current, version, isCurrent, same, stamped, -, rfl⟩ | ⟨-, rfl⟩⟩ :=
    arrive_spec arrived
  · have member := mem_of_getElem? isWrite
    obtain ⟨-, -, rfl⟩ := (sound.origin write member).current isCurrent same
    change (state.push write.key (some version)).RequestsKept quantities
    refine kept.push_some fun old isOld => ?_
    rw [cost_of_metadata (.of_assignIn (Version.stamp_spec stamped).2)]
    exact (sound.made write member purpose).cost.trans
      (kept write.key write.base (current_mem isCurrent) old isOld)
  · exact kept

theorem pass (passed : state.pass quantities plugins key sight = some after) :
    after.RequestsKept quantities := by
  obtain ⟨-, version, -, rfl | ⟨-, cluster, -, carried⟩⟩ := pass_spec passed
  · exact kept
  · cases carried <;> exact kept

theorem answer {ok : Bool}
    (answered : state.answer quantities index ok = some after) : after.RequestsKept quantities := by
  obtain ⟨write, -, -, ⟨-, rfl⟩ | ⟨rfl, -⟩ | delivered⟩ := answer_spec answered
  · unfold fail
    split <;> exact kept
  · exact kept
  · exact deliver (by exact kept) delivered

end State.RequestsKept

end

namespace State

/-- The workload is on the node on the server, moves to it, or has a write on its way that puts it
there. -/
def Promised (state : State) (key : ScheduleKey) (node : String) : Prop :=
  Stands isOn key.vm (state.cells key).current node ∨
    ∃ write ∈ state.writes, write.key = key ∧ write.purpose ≠ .claims ∧ write.node = node ∧
      state.Pending write

/-- The workloads promised a node ask for no more than it has. -/
def Fits (quantities : Quantities) (allocatable : String → Value) (state : State) : Prop :=
  ∀ node resource bound, limit quantities (allocatable node) resource = some bound →
    ∀ keys : List ScheduleKey, keys.Nodup → (∀ key ∈ keys, state.Promised key node) →
      (keys.map fun key => ((state.demand quantities key).amount resource).toNat).sum ≤ bound

variable {quantities : Quantities} {plugins : Plugins} {state after : State} {key : ScheduleKey}
  {allocatable : String → Value}

theorem Promised.current (promised : state.Promised key node) :
    ∃ current, (state.cells key).current = some current := by
  rcases promised with ⟨current, isCurrent, -⟩ | ⟨write, -, rfl, -, -, -, current, isCurrent, -⟩
  · exact ⟨current, isCurrent⟩
  · exact ⟨current, isCurrent⟩

/-- A pass for another workload counts a promised one. -/
theorem charged_of_promised (sound : state.Sound quantities)
    (trail : state.Trail isOn (· ≠ .claims))
    (targets : state.TargetsAssumed quantities) (placements : state.PlacementsAssumed)
    (kept : state.RequestsKept quantities) (promised : state.Promised key node)
    {other : ScheduleKey} (different : other ≠ key) {charges : List Charge}
    (counted : state.counts quantities other = some charges) :
    Charged quantities charges key node (state.demand quantities key) := by
  have ⟨before, looked, agree⟩ := sound.counts_agree different counted
  have ⟨current, isCurrent⟩ := promised.current
  -- a write made from the version that the feed last delivered
  have written : ∀ write ∈ state.writes, write.key = key → write.purpose ≠ .claims →
      write.fate ≠ .refused → write.node = node → ∀ seen, (state.cells key).seen = some seen →
      write.base.revision = seen.revision →
      Charged quantities charges key node (state.demand quantities key) := by
    rintro write member rfl purpose live rfl seen isSeen equal
    rw [kept.demand_eq isSeen isCurrent]
    by_cases target : write.purpose = .target
    · exact targets.charged sound member target live isSeen equal different counted
    · have placing : write.purpose = .bind ∨ write.purpose = .place := by
        cases isPurpose : write.purpose with
        | bind => exact .inl rfl
        | place => exact .inr rfl
        | target => exact absurd isPurpose target
        | claims => exact absurd isPurpose purpose
      have ⟨assumption, lookup, isNode, isObject⟩ :=
        placements write member placing seen isSeen equal
      have isBase := ((sound.origin write member).seen seen isSeen).2 equal
      have unplaced := (sound.made write member purpose).unplaced target
      rw [isBase] at unplaced
      have absent : before.placed.lookup write.key = none := by
        rw [agree.placed, sound.placed, isSeen, bind_some, placedWorkload, unplaced]
        rfl
      have charged :=
        charged_of_assumption looked different.symm absent (agree.assumptions.trans lookup)
      rw [isNode, isObject] at charged
      exact charged
  rcases promised with held | ⟨write, member, rfl, purpose, isNode, onTheWay, latest, isLatest,
    equal⟩
  · obtain ⟨seen, isSeen, held | ⟨write, member, landed⟩⟩ := (trail.current held).2
    · rw [kept.demand_eq isSeen isCurrent]
      refine charged_of_held looked ?_
      rcases held with placed | moves
      · refine .inl ?_
        rw [agree.placed, sound.placed, isSeen, bind_some, placedWorkload, placed]
        rfl
      · refine .inr ?_
        rw [agree.targets, sound.targets, isSeen, bind_some, migrationTarget, moves]
        rfl
    · exact written write member landed.key landed.purpose (by rw [landed.fate]; decide)
        landed.node seen isSeen landed.base
  · obtain ⟨-, isSeen, -⟩ := (sound.origin write member).current isLatest equal
    exact written write member rfl purpose (by rw [onTheWay]; decide) isNode latest isSeen equal

section

/-- No more is promised than before, to workloads that ask for what they asked for. -/
def Less (quantities : Quantities) (state after : State) : Prop :=
  ∀ key node, after.Promised key node →
    state.Promised key node ∧ after.demand quantities key = state.demand quantities key

theorem Less.fits (less : Less quantities state after) (fits : state.Fits quantities allocatable) :
    after.Fits quantities allocatable := by
  intro node resource bound limited keys distinct promised
  have same : (keys.map fun key => ((after.demand quantities key).amount resource).toNat) =
      keys.map fun key => ((state.demand quantities key).amount resource).toNat :=
    map_congr_left fun key member => by rw [(less key node (promised key member)).2]
  rw [same]
  exact fits node resource bound limited keys distinct fun key member =>
    (less key node (promised key member)).1

/-- Every write on its way was on its way before. -/
def OlderWrites (state after : State) : Prop :=
  ∀ write ∈ after.writes, write.fate = .onTheWay →
    ∃ before ∈ state.writes, Write.Same before write ∧ before.fate = .onTheWay

theorem olderWrites_setWrite {changed : Write}
    (isWrite : state.writes[index]? = some write) (same : write.Same changed)
    (fate : changed.fate = .onTheWay → write.fate = .onTheWay) :
    OlderWrites state (state.setWrite index changed) := by
  intro other member onTheWay
  rcases mem_or_eq_of_mem_set member with old | rfl
  · exact ⟨other, old, ⟨rfl, rfl, rfl, rfl, rfl, id⟩, onTheWay⟩
  · exact ⟨write, mem_of_getElem? isWrite, same, fate onTheWay⟩

theorem olderWrites_refl (state : State) : OlderWrites state state := fun write member onTheWay =>
  ⟨write, member, ⟨rfl, rfl, rfl, rfl, rfl, id⟩, onTheWay⟩

theorem Promised.of_older (older : OlderWrites state after)
    (same : (after.cells key).current = (state.cells key).current)
    (promised : after.Promised key node) :
    state.Promised key node ∧ after.demand quantities key = state.demand quantities key := by
  refine ⟨?_, by rw [demand, demand, same]⟩
  rcases promised with held | ⟨write, member, rfl, purpose, isNode, onTheWay, current, isCurrent,
    equal⟩
  · rw [same] at held
    exact .inl held
  · have ⟨before, isBefore, is, wasOnTheWay⟩ := older write member onTheWay
    refine .inr ⟨before, isBefore, is.key.symm, is.purpose ▸ purpose, is.node.symm.trans isNode,
      wasOnTheWay, current, ?_, is.base ▸ equal⟩
    rw [← is.key, ← same]
    exact isCurrent

theorem less_of_current (older : OlderWrites state after)
    (same : ∀ key, (after.cells key).current = (state.cells key).current) :
    Less quantities state after := fun key _ promised => promised.of_older older (same key)

/-- An object is replaced by one that holds no more, and the writes made for the old one come to
nothing. -/
theorem less_of_push (sound : state.Sound quantities) {version : Option Version}
    (cells : after.cells = (state.push key version).cells) (older : OlderWrites state after)
    (newest : ∀ pushed, version = some pushed → pushed.revision = state.revision + 1)
    (held : ∀ pushed node, version = some pushed → isOn key.vm pushed.object node →
      state.Promised key node)
    (asks : ∀ pushed current, version = some pushed → (state.cells key).current = some current →
      cost quantities key.vm pushed.object = cost quantities key.vm current.object) :
    Less quantities state after := by
  have self : (after.cells key).current = version := by simp [cells, push]
  intro other node promised
  by_cases same : other = key
  · subst same
    rcases promised with ⟨found, isFound, isHeld⟩ | ⟨write, member, rfl, -, -, onTheWay, current,
      isCurrent, equal⟩
    · rw [self] at isFound
      have before := held found node isFound isHeld
      obtain ⟨current, isCurrent⟩ := before.current
      refine ⟨before, ?_⟩
      rw [demand, demand, self, isFound, isCurrent]
      exact asks found current isFound isCurrent
    · rw [self] at isCurrent
      obtain ⟨before, isBefore, is, -⟩ := older write member onTheWay
      have bounded := (sound.origin before isBefore).bounded
      have := newest current isCurrent
      rw [is.base] at equal
      omega
  · exact promised.of_older older (by simp [cells, push, same])

theorem less_of_deliver {skipped : Nat}
    (delivered : state.deliver quantities key skipped = some after) :
    Less quantities state after := by
  obtain ⟨version, next, rfl⟩ := deliver_spec delivered
  refine less_of_current (olderWrites_refl state) fun other => ?_
  by_cases same : other = key
  · subst same
    simp only [Function.update_self]
    exact current_drop next
  · simp [same]

theorem Less.trans {middle : State} (first : Less quantities state middle)
    (second : Less quantities middle after) : Less quantities state after :=
      fun key node promised =>
  have between := second key node promised
  have before := first key node between.1
  ⟨before.1, between.2.trans before.2⟩

/-- An object that another client writes is on no other node. -/
def staysOn (state : State) (key : ScheduleKey) (object : Value) : Bool :=
  ((placedNode key.vm object).toList ++ (targetNode key.vm object).toList).all fun node =>
    (state.cells key).current.any fun current => decide (isOn key.vm current.object node)

theorem staysOn_leaves (stays : state.staysOn key object = true) :
    state.Leaves isOn key object := by
  intro node held
  have member : node ∈ (placedNode key.vm object).toList ++ (targetNode key.vm object).toList := by
    rcases held with placed | moves
    · simp [placed]
    · simp [moves]
  have ⟨current, isCurrent, isHeld⟩ :=
    (any_eq_true _ _).mp (List.all_eq_true.mp stays node member)
  exact ⟨current, isCurrent, of_decide_eq_true isHeld⟩

section

variable (sound : state.Sound quantities)

include sound

theorem less_of_store (stays : state.staysOn key object = true)
    (keeps : state.keepsRequests quantities key object = true)
    (stored : state.store key object = some after) : Less quantities state after := by
  obtain ⟨version, stamped, -, rfl⟩ := store_spec stored
  have ⟨newest, written⟩ := Version.stamp_spec stamped
  have within := Value.Within.of_assignIn written
  refine less_of_push sound rfl (olderWrites_refl _) (fun _ is => some.inj is ▸ newest) ?_ ?_
  · intro pushed node isPushed held
    cases isPushed
    exact .inl (staysOn_leaves stays node ((isOn_footprint quantities).stamped within held))
  · intro pushed current isPushed isCurrent
    rw [← some.inj isPushed, cost_of_metadata within]
    exact eq_of_beq (List.all_eq_true.mp keeps current (current_mem isCurrent))

theorem less_of_delete (deleted : state.delete key = some after) : Less quantities state after := by
  obtain rfl := delete_spec deleted
  exact less_of_push sound rfl (olderWrites_refl _) nofun nofun nofun

theorem less_of_arrive (arrived : state.arrive index = some after) :
    Less quantities state after := by
  obtain ⟨write, isWrite, onTheWay, purpose, ⟨current, version, isCurrent, equal, stamped, -, rfl⟩ |
    ⟨-, rfl⟩⟩ := arrive_spec arrived
  · have member := mem_of_getElem? isWrite
    obtain ⟨-, -, isBase⟩ := (sound.origin write member).current isCurrent equal
    have made := sound.made write member purpose
    have ⟨newest, written⟩ := Version.stamp_spec stamped
    rw [← isBase] at written
    have within := Value.Within.of_assignIn written
    refine less_of_push sound rfl (olderWrites_setWrite isWrite (same_fate ..) nofun)
      (fun _ is => some.inj is ▸ newest) ?_ ?_
    · intro pushed node isPushed held
      cases isPushed
      rcases (isOn_footprint quantities).lands purpose made
        ((isOn_footprint quantities).stamped within held) with old | ⟨-, isNode⟩
      · exact .inl ⟨current, isCurrent, isBase ▸ old⟩
      · exact .inr ⟨write, member, rfl, purpose, isNode, onTheWay, current, isCurrent, equal⟩
    · intro pushed latest isPushed isLatest
      cases isCurrent.symm.trans isLatest
      rw [← some.inj isPushed, cost_of_metadata within, ← isBase]
      exact made.cost
  · exact less_of_current (olderWrites_setWrite isWrite (same_fate ..) nofun) fun _ => rfl

end

theorem less_of_answer {ok : Bool}
    (answered : state.answer quantities index ok = some after) : Less quantities state after := by
  obtain ⟨write, isWrite, -, outcome⟩ := answer_spec answered
  have older := olderWrites_setWrite isWrite (same_answered write) id
  rcases outcome with ⟨-, rfl⟩ | ⟨rfl, -⟩ | delivered
  · unfold fail
    split <;> exact less_of_current older fun _ => rfl
  · exact less_of_current older fun _ => rfl
  · exact Less.trans (less_of_current older fun _ => rfl) (less_of_deliver delivered)

end

section

/-- What a pass counts on a node fits in 64 bits. -/
def countable (quantities : Quantities) (state : State) (key : ScheduleKey) : Bool :=
  (state.counts quantities key).all fun charges => charges.all fun charge =>
    [Resource.cpu, .memory, .pods].all fun resource =>
      decide ((charges.map fun other =>
        ((other.on quantities charge.node).amount resource).toNat).sum < 2 ^ 64)

theorem amount_zero (resource : Resource) : ((0 : NodeUsage).amount resource).toNat = 0 := by
  cases resource <;> rfl

theorem countable_lt {charges : List Charge} (fits : state.countable quantities key = true)
    (counted : state.counts quantities key = some charges) (node : String) (resource : Resource) :
    (charges.map fun charge => ((charge.on quantities node).amount resource).toNat).sum <
      2 ^ 64 := by
  unfold countable at fits
  rw [counted, all_some, List.all_eq_true] at fits
  by_cases used : ∃ charge ∈ charges, charge.node = node
  · obtain ⟨charge, member, rfl⟩ := used
    refine of_decide_eq_true (List.all_eq_true.mp (fits charge member) resource ?_)
    cases resource <;> simp
  · have nothing : (charges.map fun charge =>
        ((charge.on quantities node).amount resource).toNat) = charges.map fun _ => 0 := by
      refine map_congr_left fun charge member => ?_
      rw [Charge.on, if_neg fun same => used ⟨charge, member, same⟩]
      exact amount_zero resource
    rw [nothing]
    simp

/-- The invariant of the loop: the scheduler counts what is promised, and that fits. -/
structure Promising (quantities : Quantities) (allocatable : String → Value) (state : State) :
    Prop where
  sound : state.Sound quantities
  trail : state.Trail isOn (· ≠ .claims)
  targets : state.TargetsAssumed quantities
  placements : state.PlacementsAssumed
  kept : state.RequestsKept quantities
  fits : state.Fits quantities allocatable

section

variable (promising : state.Promising quantities allocatable)

include promising

/-- What is promised to others on a node is within what a pass counts there. -/
theorem Promising.promised_le (fits : state.countable quantities key = true)
    (taken : state.snapshotFor quantities key = some cluster) (resource : Resource)
    {keys : List ScheduleKey} (distinct : keys.Nodup) (others : ∀ other ∈ keys, other ≠ key)
    (promised : ∀ other ∈ keys, state.Promised other node) :
    (keys.map fun other => ((state.demand quantities other).amount resource).toNat).sum ≤
      ((cluster.usage node).amount resource).toNat := by
  have ⟨charges, counted, sums⟩ := promising.sound.snapshotFor_usage taken
  have bounded := countable_lt fits counted node resource
  have used : ((cluster.usage node).amount resource).toNat =
      (charges.map fun charge => ((charge.on quantities node).amount resource).toNat).sum := by
    have words := Ledger.toNat_sum
      (charges.map fun charge => (charge.on quantities node).amount resource)
    rw [List.map_map] at words
    rw [sums, amount_sum, List.map_map]
    exact words bounded
  rw [used]
  refine Ledger.sum_demand_le Charge.key _ _ distinct fun other member => ?_
  have ⟨charge, isCharge, isKey, isNode, amount⟩ := charged_of_promised promising.sound
    promising.trail promising.targets promising.placements promising.kept (promised other member)
    (others other member).symm counted
  refine ⟨charge, isCharge, isKey, ?_⟩
  rw [Charge.on, if_pos isNode, isKey, amount]

/-- A write is sent for a node that has room for its workload. -/
theorem Promising.sent (countable : state.countable quantities key = true)
    (taken : state.snapshotFor quantities key = some cluster)
    (seen : (state.cells key).seen = some version)
    (room : Room quantities (allocatable node) (cluster.usage node)
      (cost quantities key.vm version.object)) (fresh : Fresh key version node write)
    (cells : after.cells = state.cells) (writes : after.writes = state.writes ++ [write]) :
    after.Fits quantities allocatable := by
  have sameDemand : after.demand quantities = state.demand quantities := by
    funext other
    rw [demand, demand, cells]
  have older : ∀ {other : ScheduleKey} {place : String}, after.Promised other place →
      (other = key → place ≠ node) → state.Promised other place := by
    intro other place promised apart
    rcases promised with held | ⟨found, member, isKey, purpose, isNode, onTheWay, pending⟩
    · rw [cells] at held
      exact .inl held
    · rw [writes] at member
      rw [cells] at pending
      rcases mem_append.mp member with old | new
      · exact .inr ⟨found, old, isKey, purpose, isNode, onTheWay, pending⟩
      · rw [mem_singleton.mp new] at isKey isNode
        exact absurd (isNode.symm.trans fresh.node) (apart (isKey.symm.trans fresh.key))
  intro place resource bound limited keys distinct promised
  rw [sameDemand]
  by_cases new : key ∈ keys ∧ place = node
  · obtain ⟨isIn, rfl⟩ := new
    have ⟨current, isCurrent⟩ := (promised key isIn).current
    rw [cells] at isCurrent
    have apart : ∀ other ∈ keys.erase key, other ≠ key := fun other member =>
      ((Nodup.mem_erase_iff distinct).mp member).1
    have before : ∀ other ∈ keys.erase key, state.Promised other place := fun other member =>
      older (promised other (mem_of_mem_erase member)) fun same => absurd same (apart other member)
    rw [← sum_map_erase _ isIn, promising.kept.demand_eq seen isCurrent]
    rcases room resource bound limited with nothing | enough
    · have rest := promising.fits place resource bound limited _ (distinct.erase key) before
      rw [nothing]
      simpa using rest
    · have rest := promising.promised_le countable taken resource (distinct.erase key) apart before
      omega
  · refine promising.fits place resource bound limited keys distinct fun other member => ?_
    exact older (promised other member) fun same isNode => new ⟨same ▸ member, isNode⟩

end

/-- The nodes that a pass sees have what they always had. -/
def sameNodes (allocatable : String → Value) (sight : Sight) : Bool :=
  sight.nodes.all fun node => node["status"]["allocatable"] == allocatable (nodeName node)

theorem Promising.pass (promising : state.Promising quantities allocatable)
    (same : sameNodes allocatable sight = true) (countable : state.countable quantities key = true)
    (passed : state.pass quantities plugins key sight = some after) :
    after.Fits quantities allocatable := by
  obtain ⟨-, version, seen, rfl | ⟨-, cluster, taken, carried⟩⟩ := pass_spec passed
  · exact (less_of_current (olderWrites_refl state) fun _ => rfl).fits promising.fits
  · have taken : state.snapshotFor quantities key = some cluster :=
      bind_eq_some_iff.mpr ⟨version, seen, taken⟩
    cases carried with
    | nothing | reserved =>
      exact (less_of_current (olderWrites_refl state) fun _ => rfl).fits promising.fits
    | sent fits fresh | targeted fits fresh =>
      obtain ⟨found, member, rfl, room⟩ := fits.room
      rw [eq_of_beq (List.all_eq_true.mp same found member)] at room
      exact promising.sent countable taken seen room fresh rfl rfl

end

variable (quantities : Quantities) (allocatable : String → Value)

/-- Nobody but the scheduler puts workloads on nodes or changes what they ask for, nodes keep what
they have, and what a pass counts on a node fits in 64 bits. -/
def undisturbed (state : State) : Action → Prop
  | .write key object =>
    state.staysOn key object = true ∧ state.keepsRequests quantities key object = true
  | .pass key sight => sameNodes allocatable sight = true ∧ state.countable quantities key = true
  | _ => True

/-- Besides, a failure that the scheduler gives an assumption up for leaves no write that the
assumption is for. -/
def failuresSettle (state : State) : Action → Prop
  | .answer index ok =>
    ok = true ∨ (state.targetSettled index = true ∧ state.claimsSettled index = true)
  | action => state.undisturbed quantities allocatable action

instance (state : State) :
    (action : Action) → Decidable (state.undisturbed quantities allocatable action)
  | .write _ _ | .pass _ _ => inferInstanceAs (Decidable (_ ∧ _))
  | .delete _ | .deliver _ _ | .arrive _ | .answer _ _ => inferInstanceAs (Decidable True)

instance (state : State) :
    (action : Action) → Decidable (state.failuresSettle quantities allocatable action)
  | .answer _ _ => inferInstanceAs (Decidable (_ ∨ _))
  | .write _ _ | .pass _ _ => inferInstanceAs (Decidable (_ ∧ _))
  | .delete _ | .deliver _ _ | .arrive _ => inferInstanceAs (Decidable True)

variable {quantities allocatable}

theorem Promising.step (promising : state.Promising quantities allocatable) {action : Action}
    (settle : state.failuresSettle quantities allocatable action)
    (taken : state.step quantities plugins action = some after) :
    after.Promising quantities allocatable := by
  have ⟨sound, trail, targets, placements, kept, fits⟩ := promising
  have trails := trail.step sound (isOn_footprint quantities)
    (fun key object isWrite => staysOn_leaves (isWrite ▸ settle).1) taken
  cases action with
  | write key object =>
    obtain ⟨version, -, -, rfl⟩ := store_spec taken
    exact ⟨sound.step taken, trails, targets.push _, placements.push _, kept.store settle.2 taken,
      (less_of_store sound settle.1 settle.2 taken).fits fits⟩
  | delete key =>
    obtain rfl := delete_spec taken
    exact ⟨sound.step taken, trails, targets.push _, placements.push _, kept.push_none,
      (less_of_delete sound taken).fits fits⟩
  | deliver key skipped =>
    exact ⟨sound.step taken, trails,
      TargetsAssumed.deliver sound (fun write member _ => targets write member) taken,
      placements.deliver sound taken, kept.deliver taken,
      (less_of_deliver taken).fits fits⟩
  | pass key sight =>
    exact ⟨sound.step taken, trails, targets.pass sound taken, placements.pass sound taken,
      kept.pass taken, promising.pass settle.1 settle.2 taken⟩
  | arrive index =>
    exact ⟨sound.step taken, trails, targets.arrive taken, placements.arrive taken,
      kept.arrive sound taken, (less_of_arrive sound taken).fits fits⟩
  | answer index ok =>
    exact ⟨sound.step taken, trails, targets.answer sound (settle.imp_right And.left) taken,
      placements.answer sound (settle.imp_right And.right) taken, kept.answer taken,
      (less_of_answer taken).fits fits⟩

theorem Synced.promising (synced : state.Synced quantities)
    (fits : state.Fits quantities allocatable) : state.Promising quantities allocatable := by
  refine ⟨synced.sound, synced.trail, synced.moving.assumed, fun write member => ?_,
    fun key first isFirst second isSecond => ?_, fits⟩
  · rw [synced.quiet] at member
    cases member
  · rw [versions, synced.delivered key, reduceOption_mem_iff, mem_singleton] at isFirst
    rw [versions, synced.delivered key, reduceOption_mem_iff, mem_singleton] at isSecond
    rw [some.inj (isFirst.trans isSecond.symm)]

end State

/-- The workloads on a node, moving to it or on their way to it ask for no more than it has, if they
did not at the start. -/
theorem node_promised_once (quantities : Quantities) (plugins : Plugins)
    (allocatable : String → Value) (objects : List (ScheduleKey × Value)) (initial : State)
    (started : State.start quantities objects = some initial)
    (fits : initial.Fits quantities allocatable) (state : State)
    (reached : Transition.Reaches (State.step quantities plugins)
      (State.failuresSettle quantities allocatable) initial state) :
    state.Fits quantities allocatable := by
  have promising : state.Promising quantities allocatable :=
    reached.invariant ((State.start_synced started).promising fits)
      fun _ _ _ promising settle taken => promising.step settle taken
  exact promising.fits

/-- A node with room for one of the Pods. -/
def roomForOne (name : String) : Value :=
  if name = "a" then .object [("memory", .string "8")] else .null

/-- Two Pods are created, and the feed delivers them. -/
def rivals : List Action :=
  [.write (podKey "web") (waitingPod "web" "6"), .deliver (podKey "web") 0,
    .write (podKey "api") (waitingPod "api" "6"), .deliver (podKey "api") 0]

def passOf (name : String) : Action := .pass (podKey name) (sightOf [nodeOfSize "a" "8"])

/-- A pass that finds a claim of its Pod unbound. -/
def passUnbound (name : String) : Action :=
  .pass (podKey name) { sightOf [nodeOfSize "a" "8"] with
    volumes := ⟨none, fun _ => false, [("data", some (.object [("metadata", .object [])]))]⟩ }

/-- A Pod on the node `a` that asks for 6. -/
def onA (state : State) (name : String) : Bool :=
  (state.cells (podKey name)).current.any
    (fun current => placedNode false current.object == some "a") &&
    state.demand plainNumbers (podKey name) == ⟨0, 6, 1⟩

theorem promised_of_onA {state : State} {name : String} (on : onA state name = true) :
    state.Promised (podKey name) "a" ∧ state.demand plainNumbers (podKey name) = ⟨0, 6, 1⟩ := by
  have ⟨placed, asks⟩ := Bool.and_eq_true_iff.mp on
  have ⟨current, isCurrent, placed⟩ := (any_eq_true _ _).mp placed
  exact ⟨.inl ⟨current, isCurrent, .inl (eq_of_beq placed)⟩, eq_of_beq asks⟩

theorem empty_fits (allocatable : String → Value) : State.empty.Fits plainNumbers allocatable := by
  intro node resource bound limited keys distinct promised
  cases keys with
  | nil => exact Nat.zero_le _
  | cons key rest =>
    have ⟨current, isCurrent⟩ := (promised key (.head _)).current
    cases isCurrent

/-- A bind gets no answer, and arrives after a pass for the other Pod. -/
theorem node_promised_once_late : ∃ state,
    Transition.Reaches (State.step plainNumbers anyNode)
      (State.failuresSettle plainNumbers roomForOne) State.empty state ∧
    state.Promised (podKey "web") "a" ∧ state.Fits plainNumbers roomForOne := by
  refine Transition.exists_reaches_of
    (rivals ++ [passOf "web", .answer 0 false, passOf "api", .arrive 0])
      (fun state => onA state "web")
    (by decide +kernel) fun state reached on => ?_
  exact ⟨(promised_of_onA on).1, node_promised_once plainNumbers anyNode roomForOne []
    State.empty rfl (empty_fits _) state reached⟩

/-- The bind of a Pod gets no answer. The next pass finds a claim of the Pod unbound, writes to the
claim and fails, and so gives up the room that the bind is still to take. -/
theorem node_promised_twice : ∃ state,
    Transition.Reaches (State.step plainNumbers anyNode)
      (State.undisturbed plainNumbers roomForOne) State.empty state ∧
    State.empty.Fits plainNumbers roomForOne ∧ ¬state.Fits plainNumbers roomForOne := by
  refine Transition.exists_reaches_of (rivals ++ [passOf "web", .answer 0 false, passUnbound "web",
      .answer 1 false, passOf "api", .arrive 0, .arrive 2])
    (fun state => onA state "web" && onA state "api") (by decide +kernel) fun state _ on => ?_
  have ⟨web, api⟩ := Bool.and_eq_true_iff.mp on
  refine ⟨empty_fits _, fun fits => ?_⟩
  have exceeded := fits "a" .memory 8 rfl [podKey "web", podKey "api"] (by decide) (by
    simp [(promised_of_onA web).1, (promised_of_onA api).1])
  simp [(promised_of_onA web).2, (promised_of_onA api).2, NodeUsage.amount] at exceeded

/-- A write that changes an object was decided on that very version of it. The workload still waits
there for a node, or for a target, and has none: no placement takes the place of another. -/
theorem placement_overwrites_none (quantities : Quantities) (plugins : Plugins)
    (objects : List (ScheduleKey × Value)) (initial state after : State)
    (started : State.start quantities objects = some initial)
    (reached : Transition.Reaches (State.step quantities plugins) (fun _ _ => True) initial state)
    {index : Nat} {write : Write} (sent : state.writes[index]? = some write)
    (arrived : state.arrive index = some after) (changed : after.cells ≠ state.cells) :
    (state.cells write.key).current = some write.base ∧
      pendingWorkload write.key.vm write.base.object = true ∧
      (write.purpose ≠ .target → placedNode write.key.vm write.base.object = none) ∧
      (write.purpose = .target → targetNode write.key.vm write.base.object = none) := by
  have sound : state.Sound quantities := reached.invariant (State.start_synced started).sound
    fun _ _ _ sound _ taken => sound.step taken
  obtain ⟨found, isFound, -, purpose, applied | ⟨-, rfl⟩⟩ := State.arrive_spec arrived
  · obtain rfl := some.inj (isFound.symm.trans sent)
    obtain ⟨current, -, isCurrent, same, -⟩ := applied
    have member := mem_of_getElem? sent
    have made := sound.made found member purpose
    obtain ⟨-, -, isBase⟩ := (sound.origin found member).current isCurrent same
    exact ⟨isBase ▸ isCurrent, made.pending, made.unplaced, fun target => (made.moving target).2⟩
  · exact absurd rfl changed

theorem placement_overwrites_none_web : ∃ (state : State) (write : Write),
    Transition.Reaches (State.step plainNumbers anyNode) (fun _ _ => True) State.empty state ∧
      (state.cells write.key).current = some write.base ∧
      placedNode write.key.vm write.base.object = none := by
  simp only [exists_and_left]
  refine Transition.exists_reaches_of (rivals ++ [passOf "web"])
    (fun state => (state.writes[0]?).any fun write =>
      write.purpose ≠ .target && (state.arrive 0).any fun after =>
        (after.cells (podKey "web")).queue.length ≠ (state.cells (podKey "web")).queue.length)
    (by decide +kernel) fun state reached tested => ?_
  obtain ⟨write, sent, tested⟩ := (any_eq_true _ _).mp tested
  obtain ⟨purpose, tested⟩ := Bool.and_eq_true_iff.mp tested
  obtain ⟨after, arrived, longer⟩ := (any_eq_true _ _).mp tested
  have spec := placement_overwrites_none plainNumbers anyNode [] State.empty state after rfl reached
    sent arrived fun same => of_decide_eq_true longer (by rw [same])
  exact ⟨write, spec.1, spec.2.2.1 (of_decide_eq_true purpose)⟩

end Rustkube.Scheduler
