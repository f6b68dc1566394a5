import Rustkube.LeaderElection

namespace Rustkube.Lease

open Function List Transition

/-- What is known of an observation: its record was stored, and last stored before it was seen. -/
def ObservedOk (world : World) (observation : Observation) : Prop :=
  ∀ record observedAt, observation = some (record, observedAt) →
    (∃ version ∈ world.history, version.spec = record) ∧
      ∀ version ∈ world.history, version.spec = record → version.storedAt ≤ observedAt

theorem setElector_others (world : World) (candidate : Identity) (elector : Elector)
    (other : Identity) (different : other ≠ candidate) :
    (world.setElector candidate elector).electors other = world.electors other := by
  simp [World.setElector, update_of_ne different]

theorem setElector_self (world : World) (candidate : Identity) (elector : Elector) :
    (world.setElector candidate elector).electors candidate = elector := by
  simp [World.setElector]

variable {elector : Elector} {candidate : Identity} {world : World} {observation : Observation}

theorem ElectorOk.observe (ok : ElectorOk world candidate elector)
    (observed : ObservedOk world observation) :
    ElectorOk world candidate { elector with observation } :=
  { ok with observed }

theorem Safe.setElector (safe : Safe world) (ok : ElectorOk world candidate elector) :
    Safe (world.setElector candidate elector) := by
  have idle : Idle world (world.setElector candidate elector) :=
    ⟨rfl, le_rfl, le_rfl, Sublist.refl _, fun _ _ member => member⟩
  refine ⟨safe.history.idle idle, ?_, fun write member => (safe.pending write member).idle idle,
    safe.distinct⟩
  intro other
  by_cases same : other = candidate
  · subst same
    rw [setElector_self]
    exact ok.extend (idle.extends other)
  · rw [setElector_others world candidate elector other same]
    exact (safe.electors other).extend (idle.extends other)

variable {attempt : Attempt} {lease : Option (LeaseSpec × Nat)}

theorem ElectorOk.got (ok : ElectorOk world candidate elector)
    (getting : elector.phase = .getting attempt) :
    ElectorOk world candidate { elector with phase := .gotLease attempt world.lease } := by
  refine ⟨ok.term, fun _ => ok.closed (by simp [getting]), ?_, by simp, ok.observed, ?_, ?_⟩
  · intro other trying
    obtain rfl : attempt = other := by simpa [Phase.attempt?] using trying
    exact ok.began attempt (by simp [getting, Phase.attempt?])
  · intro other spec revision got
    have newest : world.lease = some (spec, revision) := by simpa using (Phase.gotLease.inj got).2
    obtain ⟨version, head, same⟩ := Option.map_eq_some_iff.mp newest
    obtain ⟨rfl, rfl⟩ : version.spec = spec ∧ version.revision = revision := by simpa using same
    exact ⟨version, mem_of_head? head, rfl, rfl⟩
  · intro other early
    obtain rfl : attempt = other := by simpa using early
    exact ok.unwritten attempt (.inl getting)

/-- Sending a write: it is the candidate's own, its record new, and it replaces a version only
when it may. -/
theorem Safe.send (safe : Safe world) {write : LeaseWrite}
    (got : (world.electors candidate).phase = .gotLease attempt lease)
    (observed : ObservedOk world observation) (holder : write.spec.holderIdentity = candidate.val)
    (duration : write.spec.leaseDurationSeconds = leaseDurationSecs)
    (renewTime : write.spec.renewTime = attempt.wall)
    (takeover : ∀ revision spec, write = .update revision spec → revision ≤ world.revision ∧
      ∀ version ∈ world.history, version.revision = revision →
        version.spec.holderIdentity = candidate.val ∨ version.storedAt + seconds 15 ≤ world.now) :
    Safe ({ world with
      sent := world.sent + 1
      pending := ⟨world.sent, candidate, write⟩ :: world.pending }.setElector candidate
        { world.electors candidate with observation, phase := .writing attempt world.sent }) := by
  have ok := safe.electors candidate
  have ⟨reading, unwritten⟩ := ok.unwritten attempt (.inr ⟨lease, got⟩)
  refine ⟨⟨safe.history.past, safe.history.ordered, safe.history.handover, safe.history.valid,
    safe.history.reading⟩, ?_, ?_, ?_⟩
  · intro other
    by_cases same : other = candidate
    · subst same
      rw [setElector_self]
      refine ⟨ok.term, fun _ => ok.closed (by simp [got]), ?_, by simp, observed, by simp, by simp⟩
      intro trying began
      obtain rfl : attempt = trying := by simpa [Phase.attempt?] using began
      exact ok.began attempt (by simp [got, Phase.attempt?])
    · rw [setElector_others _ _ _ other same]
      refine (safe.electors other).extend ⟨le_rfl, fun _ member => member,
        fun _ member => .inl member, ?_, fun _ member => member⟩
      exact forall_mem_cons.mpr ⟨.inr (Ne.symm same), fun _ old => .inl old⟩
  · intro sent member
    rcases mem_cons.mp member with rfl | old
    · refine ⟨holder, duration, ?_, ?_, takeover⟩
      · rw [renewTime]
        exact reading
      · intro version stored same
        rw [renewTime]
        exact unwritten.stored version stored same
    · exact { safe.pending sent old with }
  · refine pairwise_cons.mpr ⟨?_, safe.distinct⟩
    intro sent member owner
    rw [renewTime]
    exact (unwritten.sent sent member owner.symm).symm

theorem HistoryOk.observe (history : HistoryOk world)
    (observed : ObservedOk world observation) {spec : LeaseSpec} {observedAt : Nat}
    (stored : ∃ version ∈ world.history, version.spec = spec)
    (seen : observation = some (spec, observedAt) ∨ observedAt = world.now) :
    ObservedOk world (some (spec, observedAt)) := by
  intro record seenAt same
  obtain ⟨rfl, rfl⟩ : spec = record ∧ observedAt = seenAt := by simpa using same
  rcases seen with before | rfl
  · exact observed _ _ before
  · exact ⟨stored, fun version member _ => (history.past version member).1⟩

theorem aged {stored observedAt now : Nat} (before : stored ≤ observedAt)
    (unchanged : seconds leaseDurationSecs.toNat ≤ now - observedAt) :
    stored + seconds 15 ≤ now := by
  simp only [seconds, leaseDurationSecs] at unchanged ⊢
  omega

theorem Safe.receiveGet (safe : Safe world)
    (got : (world.electors candidate).phase = .gotLease attempt lease) :
    Safe (world.receiveGet candidate attempt lease) := by
  have ok := safe.electors candidate
  cases lease with
  | none =>
    exact safe.send got ok.observed rfl rfl rfl (fun revision spec update => by simp at update)
  | some read =>
    have ⟨spec, revision⟩ := read
    obtain ⟨version, member, rfl, rfl⟩ := ok.read attempt spec revision got
    have ⟨held, lasting⟩ := safe.history.valid version member
    have ⟨observedAt, remembered, seen, unchanged⟩ := expired_spec
      (world.electors candidate).observation version.spec
      (seconds version.spec.leaseDurationSeconds.toNat) world.now
    have observed := safe.history.observe ok.observed ⟨version, member, rfl⟩ seen
    have before := (observed _ _ rfl).2 version member rfl
    have ⟨sameObservation, decided⟩ := tryAcquireOrRenew_spec candidate attempt.wall
      (world.electors candidate).observation version.spec version.revision world.now
      (by rw [lasting]; decide)
    rw [remembered] at sameObservation
    unfold World.receiveGet
    dsimp only
    generalize tryAcquireOrRenew candidate attempt.wall (world.electors candidate).observation
      (some (version.spec, version.revision)) world.now = result at sameObservation decided
    have ⟨observation, reply⟩ := result
    obtain rfl : observation = some (version.spec, observedAt) := sameObservation
    cases reply with
    | none =>
      exact safe.setElector ((ok.observe observed).quiet (by simp [got]) rfl)
    | some write =>
      have decision := decided write rfl
      refine safe.send got observed decision.holder decision.duration decision.renewTime ?_
      intro revision record update
      obtain ⟨same, rfl⟩ := decision.update
      obtain ⟨rfl, -⟩ : version.revision = revision ∧ same = record := by simpa using update
      refine ⟨(safe.history.past version member).2, ?_⟩
      intro other inside sameRevision
      obtain rfl := safe.history.unique inside member sameRevision
      rcases decision.entitled with ours | empty | expired
      · exact .inl ours
      · exact absurd empty held
      · have waited := unchanged expired
        rw [lasting] at waited
        exact .inr (aged before waited)

variable {write : Pending}

theorem handover_aged (safe : Safe world)
    (member : write ∈ world.pending) (accepted : accepts world.lease write.write = true)
    (version : Stored) (old : version ∈ world.history)
    (foreign : write.owner.val ≠ version.spec.holderIdentity) :
    version.storedAt + seconds 15 ≤ world.now := by
  have takeover := (safe.pending write member).takeover
  have ordered := safe.history.ordered
  have handover := safe.history.handover
  have past := safe.history.past
  unfold World.lease at accepted
  cases stored : world.history with
  | nil => simp [stored] at old
  | cons newest rest =>
    rw [stored] at accepted old ordered handover past takeover
    cases sent : write.write with
    | create spec => simp [sent, accepts] at accepted
    | update revision spec =>
      have same : newest.revision = revision := by simpa [sent, accepts] using accepted
      have replaced := (takeover revision spec sent).2 newest (.head _) same
      have newestPast := (past newest (.head _)).1
      rcases mem_cons.mp old with rfl | earlier
      · exact replaced.resolve_left (fun ours => foreign ours.symm)
      · have before := (rel_of_pairwise_cons ordered earlier).2
        rcases replaced with ours | aged
        · have gap := rel_of_pairwise_cons handover earlier (by rw [ours]; exact foreign)
          omega
        · omega

abbrev World.store (world : World) (write : Pending) : World :=
  { world with
    revision := world.revision + 1
    pending := world.pending.erase write
    history := ⟨write.write.spec, world.revision + 1, world.now⟩ :: world.history }

theorem HistoryOk.store (safe : Safe world) (member : write ∈ world.pending)
    (accepted : accepts world.lease write.write = true) : HistoryOk (world.store write) := by
  have ok := safe.pending write member
  have history := safe.history
  refine ⟨?_, ?_, ?_, ?_, ?_⟩
  · refine forall_mem_cons.mpr ⟨⟨le_rfl, le_rfl⟩, fun version old => ?_⟩
    have past := history.past version old
    exact ⟨past.1, Nat.le_succ_of_le past.2⟩
  · refine pairwise_cons.mpr ⟨?_, history.ordered⟩
    intro version old
    have past := history.past version old
    exact ⟨Nat.lt_succ_of_le past.2, past.1⟩
  · refine pairwise_cons.mpr ⟨?_, history.handover⟩
    intro version old holders
    exact handover_aged safe member accepted version old (by rw [← ok.holder]; exact holders)
  · have named := ok.holder ▸ write.owner.property
    exact forall_mem_cons.mpr ⟨⟨named, ok.duration⟩, history.valid⟩
  · refine forall_mem_cons.mpr ⟨fun candidate holder => ?_, history.reading⟩
    obtain rfl : write.owner = candidate := Subtype.ext (ok.holder.symm.trans holder)
    exact ok.reading

section

variable (safe : Safe world)

include safe

theorem Safe.store (member : write ∈ world.pending)
    (accepted : accepts world.lease write.write = true) : Safe (world.store write) := by
  have ok := safe.pending write member
  refine ⟨HistoryOk.store safe member accepted, ?_, ?_, safe.distinct.sublist erase_sublist⟩
  · intro candidate
    refine (safe.electors candidate).extend ⟨le_rfl, fun _ inside => .tail _ inside, ?_,
      fun _ inside => .inl (mem_of_mem_erase inside), fun _ inside => inside⟩
    intro version inside
    rcases mem_cons.mp inside with rfl | old
    · refine .inr ⟨fun old found same => ?_, fun holder => ⟨write, member, ?_, rfl⟩⟩
      · exact ok.unstored old found (same ▸ ok.holder) (same ▸ rfl)
      · exact Subtype.ext (ok.holder.symm.trans holder)
    · exact .inl old
  · intro other left
    have before := safe.pending other (mem_of_mem_erase left)
    refine ⟨before.holder, before.duration, before.reading, ?_, ?_⟩
    · refine forall_mem_cons.mpr ⟨fun holder => ?_, before.unstored⟩
      have front := (perm_cons_erase member).pairwise safe.distinct
        fun distinct same => (distinct same.symm).symm
      exact rel_of_pairwise_cons front left (Subtype.ext (ok.holder.symm.trans holder))
    · intro revision spec update
      have ⟨known, replaced⟩ := before.takeover revision spec update
      refine ⟨Nat.le_succ_of_le known, forall_mem_cons.mpr ⟨fun same => ?_, replaced⟩⟩
      change world.revision + 1 = revision at same
      omega

theorem Safe.erase (write : Pending) : Safe { world with pending := world.pending.erase write } :=
  safe.idle ⟨rfl, le_rfl, le_rfl, erase_sublist, fun _ _ member => member⟩ rfl

theorem Safe.serveWrite (member : write ∈ world.pending) : Safe (world.serveWrite write) := by
  unfold World.serveWrite
  cases accepted : accepts world.lease write.write with
  | true =>
    have stored := safe.store member accepted
    refine stored.setElector ((stored.electors write.owner).hear _ _ fun _ => ?_)
    exact ⟨_, .head _, (safe.pending write member).holder, le_rfl⟩
  | false =>
    have erased := safe.erase write
    refine erased.setElector ((erased.electors write.owner).hear _ _ fun yes => ?_)
    simp at yes

end

/-- An attempt begins with a wall clock reading the candidate has not begun one with before. -/
def freshReading (world : World) : Action → Bool
  | .begin candidate wall => !(world.readings candidate).contains wall
  | _ => true

theorem Safe.begin (safe : Safe world) {holding : Bool}
    {wall : Int} (resting : (world.electors candidate).phase = .resting holding)
    (fresh : wall ∉ world.readings candidate) :
    Safe ({ world with
      readings := update world.readings candidate (wall :: world.readings candidate)
      }.setElector candidate
        { world.electors candidate with phase := .getting ⟨holding, world.now, wall⟩ }) := by
  have idle : Idle world { world with
      readings := update world.readings candidate (wall :: world.readings candidate) } := by
    refine ⟨rfl, le_rfl, le_rfl, Sublist.refl _, ?_⟩
    intro other
    by_cases same : other = candidate
    · subst same
      simp
    · simp [update_of_ne same]
  have read := safe.idle idle rfl
  have ok := read.electors candidate
  refine read.setElector ⟨ok.term, fun _ => ok.closed (by simp [resting]), ?_, by simp, ok.observed,
    by simp, ?_⟩
  · intro attempt trying
    obtain rfl : ⟨holding, world.now, wall⟩ = attempt := by simpa [Phase.attempt?] using trying
    exact le_rfl
  · intro attempt early
    obtain rfl : ⟨holding, world.now, wall⟩ = attempt := by simpa using early
    refine ⟨by simp, ?_, ?_⟩
    · intro version member holder same
      have reading := safe.history.reading version member candidate holder
      rw [same] at reading
      exact fresh reading
    · intro write member owner same
      have reading := (safe.pending write member).reading
      rw [owner, same] at reading
      exact fresh reading

theorem step_safe {after : World} {action : Action} (safe : Safe world)
    (fresh : freshReading world action = true) (taken : step world action = some after) :
    Safe after := by
  cases action with
  | tick elapsed =>
    cases taken
    exact safe.idle ⟨rfl, Nat.le_add_right _ _, le_rfl, Sublist.refl _, fun _ _ member => member⟩
      rfl
  | storeOther =>
    cases taken
    exact safe.idle ⟨rfl, le_rfl, Nat.le_succ _, Sublist.refl _, fun _ _ member => member⟩ rfl
  | enter candidate =>
    simp only [step] at taken
    split_ifs at taken
    cases taken
    exact safe.setElector (safe.electors candidate).shut
  | begin candidate wall =>
    simp only [step] at taken
    split at taken
    · rename_i holding resting
      split_ifs at taken
      cases taken
      exact safe.begin resting (by simpa [freshReading] using fresh)
    · simp at taken
  | serveGet candidate =>
    simp only [step] at taken
    split at taken
    · rename_i attempt getting
      cases taken
      exact safe.setElector ((safe.electors candidate).got getting)
    · simp at taken
  | receiveGet candidate =>
    simp only [step] at taken
    split at taken
    · rename_i attempt lease got
      cases taken
      exact safe.receiveGet got
    · simp at taken
  | serveWrite write =>
    simp only [step] at taken
    split_ifs at taken with member
    cases taken
    exact safe.serveWrite member
  | loseWrite write =>
    simp only [step] at taken
    split_ifs at taken
    cases taken
    exact safe.erase write
  | finish candidate =>
    simp only [step] at taken
    split at taken
    · rename_i attempt answered
      cases taken
      exact safe.setElector ((safe.electors candidate).finish answered)
    · simp at taken
  | fail candidate =>
    simp only [step] at taken
    split at taken
    · rename_i attempt trying
      cases taken
      refine safe.setElector ((safe.electors candidate).quiet ?_ rfl)
      intro starting
      simp [starting, Phase.attempt?] at trying
    · simp at taken
  | leave candidate =>
    simp only [step] at taken
    split_ifs at taken with holding
    cases taken
    refine safe.setElector ((safe.electors candidate).quiet ?_ rfl)
    intro starting
    simp [starting, Phase.holding] at holding
  | close candidate =>
    simp only [step] at taken
    split_ifs at taken
    cases taken
    exact safe.setElector (safe.electors candidate).shut

/-- Versions of two holders were stored at least a lease duration apart. -/
def Apart (left right : Stored) : Prop :=
  left.spec.holderIdentity ≠ right.spec.holderIdentity →
    left.storedAt + seconds 15 ≤ right.storedAt ∨ right.storedAt + seconds 15 ≤ left.storedAt

instance : Std.Symm Apart := ⟨fun _ _ gap holders => (gap holders.symm).symm⟩

theorem Safe.exclusive (safe : Safe world) {first second : Identity}
    (different : first ≠ second) : ¬ (world.grants first ∧ world.grants second) := by
  have live (candidate : Identity) (granted : world.grants candidate) :
      ∃ version ∈ world.history, version.spec.holderIdentity = candidate.val ∧
        world.now < version.storedAt + renewDeadline := by
    have ⟨entered, budget⟩ := granted
    have ok := safe.electors candidate
    cases gate : (world.electors candidate).gate with
    | unrestricted => exact absurd gate (ok.closed entered)
    | follower => simp [gate, Permission.budget] at budget
    | leader expires =>
      have ⟨version, member, holder, bound⟩ := ok.term expires gate
      have left : expires - world.now ≠ 0 := by
        intro zero
        simp [gate, Permission.budget, zero] at budget
      exact ⟨version, member, holder, by omega⟩
  have spread : world.history.Pairwise Apart :=
    safe.history.handover.imp fun gap holders => .inr (gap holders)
  rintro ⟨firstGrants, secondGrants⟩
  have ⟨mine, inMine, mineHolder, mineLive⟩ := live first firstGrants
  have ⟨yours, inYours, yoursHolder, yoursLive⟩ := live second secondGrants
  have holders : mine.spec.holderIdentity ≠ yours.spec.holderIdentity := by
    rw [mineHolder, yoursHolder]
    exact fun same => different (Subtype.ext same)
  have minePast := (safe.history.past mine inMine).1
  have yoursPast := (safe.history.past yours inYours).1
  have gap := spread.forall inMine inYours (fun same => holders (by rw [same])) holders
  simp only [renewDeadline, seconds] at mineLive yoursLive gap
  omega

/-- However steps, delays, losses and pauses interleave, as long as no candidate begins two
attempts at the same wall clock reading, no two gates let a mutation begin at one instant. -/
theorem one_leader (world : World)
    (reached : Transition.Reaches step (fun world action => freshReading world action = true)
      World.init world)
    (first second : Identity) (different : first ≠ second) :
    ¬ (world.grants first ∧ world.grants second) := by
  have safe : Safe world := reached.invariant init_safe fun _ _ _ before fresh taken =>
    step_safe before fresh taken
  exact safe.exclusive different

def masterOne : Identity := defaultIdentity "master1" "6d1c"

def masterTwo : Identity := defaultIdentity "master2" "b052"

/-- The first candidate creates the Lease and leads, the second sees it, and the first renews it
nine seconds later at the wall clock reading `renewal`. -/
def leadAndRenew (renewal : Int) : List Action :=
  let created : LeaseSpec := ⟨masterOne.val, 15, 100, 100, 0⟩
  [.enter masterOne, .enter masterTwo, .begin masterOne 100, .serveGet masterOne,
    .receiveGet masterOne, .serveWrite ⟨0, masterOne, .create created⟩, .finish masterOne,
    .begin masterTwo 500, .serveGet masterTwo, .receiveGet masterTwo, .tick (seconds 9),
    .begin masterOne renewal, .serveGet masterOne, .receiveGet masterOne,
    .serveWrite ⟨1, masterOne, .update 1 { created with renewTime := renewal }⟩, .finish masterOne]

theorem one_leader_renewed : ∃ world,
    Transition.Reaches step (fun world action => freshReading world action = true) World.init
      world ∧ world.grants masterOne ∧ ¬ world.grants masterTwo := by
  refine ⟨_, Reaches.start.run (leadAndRenew 109) rfl, by decide, ?_⟩
  intro granted
  exact one_leader _ (Reaches.start.run (leadAndRenew 109) rfl) masterOne masterTwo
    (by decide) ⟨by decide, granted⟩

/-- When the wall clock of the leader stands at the reading of its last renewal, the Lease it
renews does not change. Its term now ends at 19 s; at 15 s the other candidate has seen one and
the same record for the whole lease duration, and takes over. And before their election loops
begin, the gates of both are unrestricted. -/
theorem two_leaders :
    (∃ world, Transition.Reaches step (fun _ _ => True) World.init world ∧
      world.grants masterOne ∧ world.grants masterTwo) ∧
    ((World.init.electors masterOne).gate.budget World.init.now).isSome ∧
    ((World.init.electors masterTwo).gate.budget World.init.now).isSome := by
  refine ⟨⟨_, Reaches.start.run (leadAndRenew 100 ++
    [.tick (seconds 6), .begin masterTwo 600, .serveGet masterTwo, .receiveGet masterTwo,
      .serveWrite ⟨2, masterTwo, .update 2 ⟨masterTwo.val, 15, 600, 600, 1⟩⟩,
      .finish masterTwo]) rfl, by decide, by decide⟩, by decide, by decide⟩

/-- While the term of a candidate runs, the stored Lease names it, and whatever another candidate
stored before is older by a lease duration. -/
theorem term_holds_lease (world : World)
    (reached : Reaches step (fun world action => freshReading world action = true) World.init world)
    (candidate : Identity) (expires : Nat)
    (leads : (world.electors candidate).gate = .leader expires) (runs : world.now < expires) :
    ∃ newest, world.history.head? = some newest ∧ newest.spec.holderIdentity = candidate.val ∧
      ∀ version ∈ world.history, version.spec.holderIdentity ≠ candidate.val →
        version.storedAt + seconds 15 ≤ newest.storedAt := by
  have safe : Safe world := reached.invariant init_safe fun _ _ _ before fresh taken =>
    step_safe before fresh taken
  obtain ⟨mine, member, holder, bound⟩ := (safe.electors candidate).term expires leads
  have past := safe.history.past
  have handover := safe.history.handover
  cases stored : world.history with
  | nil => simp [stored] at member
  | cons newest rest =>
    rw [stored] at member past handover
    have holds : newest.spec.holderIdentity = candidate.val := by
      by_contra foreign
      have earlier : mine ∈ rest :=
        (mem_cons.mp member).resolve_left fun same => foreign (same ▸ holder)
      have gap := rel_of_pairwise_cons handover earlier (holder ▸ foreign)
      have newestPast := (past newest (.head _)).1
      simp only [renewDeadline, seconds] at bound gap
      omega
    refine ⟨newest, rfl, holds, fun version old foreign => ?_⟩
    have earlier : version ∈ rest :=
      (mem_cons.mp old).resolve_left fun same => foreign (same ▸ holds)
    exact rel_of_pairwise_cons handover earlier (holds ▸ foreign.symm)

theorem term_holds_lease_renewed : ∃ world newest,
    Reaches step (fun world action => freshReading world action = true) World.init world ∧
      world.history.head? = some newest ∧ newest.spec.holderIdentity = masterOne.val := by
  have reached : Reaches step (fun world action => freshReading world action = true) World.init _ :=
    Reaches.start.run (leadAndRenew 109) rfl
  obtain ⟨newest, stored, holds, -⟩ := term_holds_lease _ reached masterOne _ rfl (by decide)
  exact ⟨_, newest, reached, stored, holds⟩

end Rustkube.Lease
