import Mathlib.Algebra.Order.Ring.Int
import Rustkube.Lib.Transition
import Mathlib.Data.List.Pairwise

namespace Rustkube.Lease

/- Instants are readings of the monotonic clock, and durations their differences, in nanoseconds. -/

def seconds (count : Nat) : Nat := count * 1000000000

def renewDeadline : Nat := seconds 10

def leaseDurationSecs : Int := 15

inductive Permission where
  | unrestricted
  | follower
  | leader (expires : Nat)
deriving DecidableEq

namespace Permission

/-- Begin a term whose acquiring attempt started at `attempted`. -/
def start (attempted : Nat) : Permission := .leader (attempted + renewDeadline)

/-- Extend a live term. An expired term is never revived. -/
def renew (permission : Permission) (attempted now : Nat) : Permission × Bool :=
  match permission with
  | .leader expires =>
    if now < expires then (.leader (max expires (attempted + renewDeadline)), true)
    else (.follower, false)
  | _ => (.follower, false)

def remaining (permission : Permission) (now : Nat) : Option Nat :=
  match permission with
  | .leader expires => some (expires - now)
  | _ => none

/-- The time a mutation may take, if the gate lets one begin. -/
def budget (permission : Permission) (now : Nat) : Option Nat :=
  match permission with
  | .unrestricted => some (seconds 30)
  | .leader expires => if expires - now = 0 then none else some (min (expires - now) (seconds 5))
  | .follower => none

end Permission

/-- The `spec` of the Lease. `acquireTime` and `renewTime` are a candidate's wall clock, in
microseconds. -/
structure LeaseSpec where
  holderIdentity : String
  leaseDurationSeconds : Int
  acquireTime : Int
  renewTime : Int
  leaseTransitions : Int
deriving DecidableEq

/-- The last record seen and when it was first seen. -/
abbrev Observation := Option (LeaseSpec × Nat)

/-- Whether the record has stayed the same for `duration`, and what to remember. -/
def Observation.expired (observation : Observation) (spec : LeaseSpec) (duration : Nat)
    (now : Nat) : Observation × Bool :=
  match observation with
  | some (record, observedAt) =>
    if record = spec then (some (record, observedAt), decide (duration ≤ now - observedAt))
    else (some (spec, now), decide (duration ≤ 0))
  | none => (some (spec, now), decide (duration ≤ 0))

/-- A holder's identity is a host name, an underscore and a UUID: it is never empty. -/
abbrev Identity := { text : String // text ≠ "" }

def defaultIdentity (host uuid : String) : Identity :=
  ⟨host ++ "_" ++ uuid, by
    intro empty
    have chars := congrArg String.toList empty
    simp at chars⟩

/-- A write to the Lease: create it, or replace the version read. -/
inductive LeaseWrite where
  | create (spec : LeaseSpec)
  | update (resourceVersion : Nat) (spec : LeaseSpec)
deriving DecidableEq

def LeaseWrite.spec : LeaseWrite → LeaseSpec
  | .create spec => spec
  | .update _ spec => spec

def saturatingSucc (value : Int) : Int := min (value + 1) (2 ^ 63 - 1)

/-- `try_acquire_or_renew` from the Lease it got (`none` is a 404) to the write it sends. `wall` is
the wall clock read when the attempt began. -/
def tryAcquireOrRenew (identity : Identity) (wall : Int) (observation : Observation)
    (lease : Option (LeaseSpec × Nat)) (now : Nat) : Observation × Option LeaseWrite :=
  match lease with
  | none => (observation, some (.create ⟨identity.val, leaseDurationSecs, wall, wall, 0⟩))
  | some (spec, resourceVersion) =>
    let heldByUs := spec.holderIdentity = identity.val
    if spec.leaseDurationSeconds ≤ 0 then (observation, none)
    else
      let (observation, expired) :=
        observation.expired spec (seconds spec.leaseDurationSeconds.toNat) now
      -- a valid lease held by someone else
      if ¬ heldByUs ∧ spec.holderIdentity ≠ "" ∧ expired = false then (observation, none)
      else
        let (acquireTime, transitions) :=
          if heldByUs then (spec.acquireTime, spec.leaseTransitions)
          else (wall, saturatingSucc spec.leaseTransitions)
        (observation, some (.update resourceVersion
          ⟨identity.val, leaseDurationSecs, acquireTime, wall, transitions⟩))

/-- One run of `try_acquire_or_renew`: when it began, on the monotonic and on the wall clock.
`holding` tells an attempt of `hold` from one of `acquire`. -/
structure Attempt where
  holding : Bool
  attempted : Nat
  wall : Int
deriving DecidableEq

/-- Where a candidate's election loop stands. -/
inductive Phase where
  /-- before the loop, the gate as it was built -/
  | starting
  /-- between two attempts -/
  | resting (holding : Bool)
  /-- the GET is on its way -/
  | getting (attempt : Attempt)
  /-- the answer to the GET is on its way -/
  | gotLease (attempt : Attempt) (lease : Option (LeaseSpec × Nat))
  /-- the write of that number is on its way -/
  | writing (attempt : Attempt) (number : Nat)
  /-- the answer to the write is on its way -/
  | answered (attempt : Attempt) (accepted : Bool)
  /-- the term is over, its gate not yet closed -/
  | ended
deriving DecidableEq

structure Elector where
  gate : Permission
  observation : Observation
  phase : Phase
deriving DecidableEq

/-- A version of the Lease the API server has stored. -/
structure Stored where
  spec : LeaseSpec
  revision : Nat
  storedAt : Nat
deriving DecidableEq

/-- A write that has been sent and that the server has not handled. Its sender may have given up
on it. -/
structure Pending where
  number : Nat
  owner : Identity
  write : LeaseWrite
deriving DecidableEq

/-- `history` holds the versions of the Lease, the newest first. `readings` are the wall clock
readings each candidate's attempts have begun with. -/
structure World where
  now : Nat
  revision : Nat
  history : List Stored
  pending : List Pending
  sent : Nat
  electors : Identity → Elector
  readings : Identity → List Int

/-- A candidate is built with an unrestricted gate; its election loop closes it first. -/
def World.init : World where
  now := 0
  revision := 0
  history := []
  pending := []
  sent := 0
  electors := fun _ => ⟨.unrestricted, none, .starting⟩
  readings := fun _ => []

def World.lease (world : World) : Option (LeaseSpec × Nat) :=
  world.history.head?.map fun version => (version.spec, version.revision)

def World.setElector (world : World) (candidate : Identity) (elector : Elector) : World :=
  { world with electors := Function.update world.electors candidate elector }

inductive Action where
  /-- time passes: delays, sleeps and pauses -/
  | tick (elapsed : Nat)
  /-- the server stores another object -/
  | storeOther
  | enter (candidate : Identity)
  | begin (candidate : Identity) (wall : Int)
  | serveGet (candidate : Identity)
  | receiveGet (candidate : Identity)
  | serveWrite (write : Pending)
  | loseWrite (write : Pending)
  /-- the attempt returned true -/
  | finish (candidate : Identity)
  /-- the attempt returned false: an error, a lost answer, a timeout -/
  | fail (candidate : Identity)
  /-- `hold` ends, or is dropped with its term -/
  | leave (candidate : Identity)
  | close (candidate : Identity)

/-- The server's compare-and-swap. -/
def accepts (lease : Option (LeaseSpec × Nat)) : LeaseWrite → Bool
  | .create _ => lease.isNone
  | .update resourceVersion _ => lease.any fun (_, current) => current == resourceVersion

/-- What the sender of a write hears of it, if it still waits for it. -/
def Elector.hear (elector : Elector) (number : Nat) (accepted : Bool) : Elector :=
  match elector.phase with
  | .writing attempt waiting =>
    if waiting = number then { elector with phase := .answered attempt accepted } else elector
  | _ => elector

def World.serveWrite (world : World) (write : Pending) : World :=
  let accepted := accepts world.lease write.write
  let world := { world with pending := world.pending.erase write }
  let world :=
    if accepted then
      { world with
        revision := world.revision + 1
        history := ⟨write.write.spec, world.revision + 1, world.now⟩ :: world.history }
    else world
  world.setElector write.owner ((world.electors write.owner).hear write.number accepted)

/-- The candidate handles the answer to its GET and sends what it decides on. -/
def World.receiveGet (world : World) (candidate : Identity) (attempt : Attempt)
    (lease : Option (LeaseSpec × Nat)) : World :=
  let elector := world.electors candidate
  match tryAcquireOrRenew candidate attempt.wall elector.observation lease world.now with
  | (observation, none) =>
    world.setElector candidate { elector with observation, phase := .resting attempt.holding }
  | (observation, some write) =>
    { world with
      sent := world.sent + 1
      pending := ⟨world.sent, candidate, write⟩ :: world.pending }.setElector candidate
        { elector with observation, phase := .writing attempt world.sent }

/-- An attempt that succeeded starts the term or extends it. -/
def Elector.finish (elector : Elector) (attempt : Attempt) (now : Nat) : Elector :=
  if attempt.holding then
    match elector.gate.renew attempt.attempted now with
    | (gate, true) => { elector with gate, phase := .resting true }
    | (gate, false) => { elector with gate, phase := .ended }
  else { elector with gate := .start attempt.attempted, phase := .resting true }

/-- Whether the attempt, or the rest, belongs to a term that is held. -/
def Phase.holding : Phase → Bool
  | .resting holding => holding
  | .getting attempt | .gotLease attempt _ | .writing attempt _ | .answered attempt _ =>
    attempt.holding
  | .starting | .ended => false

def Phase.attempt? : Phase → Option Attempt
  | .getting attempt | .gotLease attempt _ | .writing attempt _ | .answered attempt _ =>
    some attempt
  | .starting | .resting _ | .ended => none

def step (world : World) : Action → Option World
  | .tick elapsed => some { world with now := world.now + elapsed }
  | .storeOther => some { world with revision := world.revision + 1 }
  | .enter candidate =>
    let elector := world.electors candidate
    if elector.phase = .starting then
      some (world.setElector candidate { elector with gate := .follower, phase := .resting false })
    else none
  | .begin candidate wall =>
    let elector := world.electors candidate
    match elector.phase with
    | .resting holding =>
      -- `hold` only tries again while its term lasts
      if holding && (elector.gate.remaining world.now).getD 0 == 0 then none
      else some ({ world with
        readings := Function.update world.readings candidate (wall :: world.readings candidate)
        }.setElector candidate { elector with phase := .getting ⟨holding, world.now, wall⟩ })
    | _ => none
  | .serveGet candidate =>
    let elector := world.electors candidate
    match elector.phase with
    | .getting attempt =>
      some (world.setElector candidate { elector with phase := .gotLease attempt world.lease })
    | _ => none
  | .receiveGet candidate =>
    match (world.electors candidate).phase with
    | .gotLease attempt lease => some (world.receiveGet candidate attempt lease)
    | _ => none
  | .serveWrite write => if write ∈ world.pending then some (world.serveWrite write) else none
  | .loseWrite write =>
    if write ∈ world.pending then some { world with pending := world.pending.erase write } else none
  | .finish candidate =>
    let elector := world.electors candidate
    match elector.phase with
    | .answered attempt true => some (world.setElector candidate (elector.finish attempt world.now))
    | _ => none
  | .fail candidate =>
    let elector := world.electors candidate
    match elector.phase.attempt? with
    | some attempt =>
      some (world.setElector candidate { elector with phase := .resting attempt.holding })
    | none => none
  | .leave candidate =>
    let elector := world.electors candidate
    if elector.phase.holding then
      some (world.setElector candidate { elector with phase := .ended })
    else none
  | .close candidate =>
    let elector := world.electors candidate
    if elector.phase = .ended then
      some (world.setElector candidate { elector with gate := .follower, phase := .resting false })
    else none

/-- The gate of a candidate that is in its election loop lets a mutation begin. -/
def World.grants (world : World) (candidate : Identity) : Prop :=
  (world.electors candidate).phase ≠ .starting ∧
    ((world.electors candidate).gate.budget world.now).isSome

instance (world : World) (candidate : Identity) : Decidable (world.grants candidate) :=
  inferInstanceAs (Decidable (_ ∧ _))

/-- The candidate has neither stored nor sent a record with this renew time. -/
structure Unwritten (world : World) (candidate : Identity) (wall : Int) : Prop where
  stored : ∀ version ∈ world.history, version.spec.holderIdentity = candidate.val →
    version.spec.renewTime ≠ wall
  sent : ∀ write ∈ world.pending, write.owner = candidate → write.write.spec.renewTime ≠ wall

structure ElectorOk (world : World) (candidate : Identity) (elector : Elector) : Prop where
  /-- a term ends at most the renew deadline after a version the candidate stored -/
  term : ∀ expires, elector.gate = .leader expires → ∃ version ∈ world.history,
    version.spec.holderIdentity = candidate.val ∧ expires ≤ version.storedAt + renewDeadline
  closed : elector.phase ≠ .starting → elector.gate ≠ .unrestricted
  began : ∀ attempt, elector.phase.attempt? = some attempt → attempt.attempted ≤ world.now
  accepted : ∀ attempt, elector.phase = .answered attempt true → ∃ version ∈ world.history,
    version.spec.holderIdentity = candidate.val ∧ attempt.attempted ≤ version.storedAt
  /-- a record is stored before it is observed -/
  observed : ∀ record observedAt, elector.observation = some (record, observedAt) →
    (∃ version ∈ world.history, version.spec = record) ∧
      ∀ version ∈ world.history, version.spec = record → version.storedAt ≤ observedAt
  read : ∀ attempt spec revision, elector.phase = .gotLease attempt (some (spec, revision)) →
    ∃ version ∈ world.history, version.spec = spec ∧ version.revision = revision
  unwritten : ∀ attempt, (elector.phase = .getting attempt ∨
      ∃ lease, elector.phase = .gotLease attempt lease) →
    attempt.wall ∈ world.readings candidate ∧ Unwritten world candidate attempt.wall

structure PendingOk (world : World) (write : Pending) : Prop where
  holder : write.write.spec.holderIdentity = write.owner.val
  duration : write.write.spec.leaseDurationSeconds = leaseDurationSecs
  reading : write.write.spec.renewTime ∈ world.readings write.owner
  unstored : ∀ version ∈ world.history, version.spec.holderIdentity = write.owner.val →
    version.spec.renewTime ≠ write.write.spec.renewTime
  /-- a version is replaced by its own holder, or once it is a lease duration old -/
  takeover : ∀ revision spec, write.write = .update revision spec → revision ≤ world.revision ∧
    ∀ version ∈ world.history, version.revision = revision →
      version.spec.holderIdentity = write.owner.val ∨ version.storedAt + seconds 15 ≤ world.now

structure HistoryOk (world : World) : Prop where
  past : ∀ version ∈ world.history, version.storedAt ≤ world.now ∧
    version.revision ≤ world.revision
  ordered : world.history.Pairwise fun newer older =>
    older.revision < newer.revision ∧ older.storedAt ≤ newer.storedAt
  handover : world.history.Pairwise fun newer older =>
    newer.spec.holderIdentity ≠ older.spec.holderIdentity →
      older.storedAt + seconds 15 ≤ newer.storedAt
  valid : ∀ version ∈ world.history,
    version.spec.holderIdentity ≠ "" ∧ version.spec.leaseDurationSeconds = leaseDurationSecs
  reading : ∀ version ∈ world.history, ∀ candidate : Identity,
    version.spec.holderIdentity = candidate.val → version.spec.renewTime ∈ world.readings candidate

structure Safe (world : World) : Prop where
  history : HistoryOk world
  electors : ∀ candidate, ElectorOk world candidate (world.electors candidate)
  pending : ∀ write ∈ world.pending, PendingOk world write
  distinct : world.pending.Pairwise fun left right =>
    left.owner = right.owner → left.write.spec.renewTime ≠ right.write.spec.renewTime

theorem init_safe : Safe World.init where
  history := ⟨by simp [World.init], .nil, .nil, by simp [World.init], by simp [World.init]⟩
  electors candidate := by
    constructor <;> simp [World.init, Phase.attempt?]
  pending := by simp [World.init]
  distinct := .nil

/-- What a later world may add without touching what is known of a candidate: versions with new
records, of which its own were pending, and writes of others. -/
structure Extends (world later : World) (candidate : Identity) : Prop where
  now : world.now ≤ later.now
  kept : ∀ version ∈ world.history, version ∈ later.history
  added : ∀ version ∈ later.history, version ∈ world.history ∨
    (∀ old ∈ world.history, old.spec ≠ version.spec) ∧
      (version.spec.holderIdentity = candidate.val →
        ∃ write ∈ world.pending, write.owner = candidate ∧ write.write.spec = version.spec)
  pending : ∀ write ∈ later.pending, write ∈ world.pending ∨ write.owner ≠ candidate
  readings : world.readings candidate ⊆ later.readings candidate

variable {world later : World} {candidate : Identity}

theorem Unwritten.extend {wall : Int}
    (unwritten : Unwritten world candidate wall) (extends' : Extends world later candidate) :
    Unwritten later candidate wall where
  stored version member holder := by
    rcases extends'.added version member with old | ⟨-, pending⟩
    · exact unwritten.stored version old holder
    · have ⟨write, inPending, owner, same⟩ := pending holder
      rw [← same]
      exact unwritten.sent write inPending owner
  sent write member owner := by
    rcases extends'.pending write member with old | other
    · exact unwritten.sent write old owner
    · exact absurd owner other

theorem ElectorOk.extend {elector : Elector}
    (ok : ElectorOk world candidate elector) (extends' : Extends world later candidate) :
    ElectorOk later candidate elector where
  term expires gate := by
    have ⟨version, member, holder, bound⟩ := ok.term expires gate
    exact ⟨version, extends'.kept version member, holder, bound⟩
  closed := ok.closed
  began attempt trying := Nat.le_trans (ok.began attempt trying) extends'.now
  accepted attempt answered := by
    have ⟨version, member, holder, bound⟩ := ok.accepted attempt answered
    exact ⟨version, extends'.kept version member, holder, bound⟩
  observed record observedAt seen := by
    have ⟨⟨version, member, same⟩, before⟩ := ok.observed record observedAt seen
    refine ⟨⟨version, extends'.kept version member, same⟩, ?_⟩
    intro other inside equal
    rcases extends'.added other inside with old | ⟨fresh, -⟩
    · exact before other old equal
    · exact absurd (same.trans equal.symm) (fresh version member)
  read attempt spec revision got := by
    have ⟨version, member, same⟩ := ok.read attempt spec revision got
    exact ⟨version, extends'.kept version member, same⟩
  unwritten attempt early := by
    have ⟨reading, unwritten⟩ := ok.unwritten attempt early
    exact ⟨extends'.readings reading, unwritten.extend extends'⟩

/-- The Lease and the writes to it are as before, or fewer of them are pending; time, revisions
and clock readings have only advanced. -/
structure Idle (world later : World) : Prop where
  history : later.history = world.history
  now : world.now ≤ later.now
  revision : world.revision ≤ later.revision
  pending : List.Sublist later.pending world.pending
  readings : ∀ candidate, world.readings candidate ⊆ later.readings candidate

theorem Idle.extends (idle : Idle world later) (candidate : Identity) :
    Extends world later candidate where
  now := idle.now
  kept version member := by rw [idle.history]; exact member
  added version member := by rw [idle.history] at member; exact .inl member
  pending write member := .inl (idle.pending.subset member)
  readings := idle.readings candidate

theorem HistoryOk.idle (ok : HistoryOk world) (idle : Idle world later) :
    HistoryOk later where
  past version member := by
    rw [idle.history] at member
    have before := ok.past version member
    exact ⟨Nat.le_trans before.1 idle.now, Nat.le_trans before.2 idle.revision⟩
  ordered := by rw [idle.history]; exact ok.ordered
  handover := by rw [idle.history]; exact ok.handover
  valid := by rw [idle.history]; exact ok.valid
  reading version member candidate holder := by
    rw [idle.history] at member
    exact idle.readings candidate (ok.reading version member candidate holder)

theorem PendingOk.idle {write : Pending} (ok : PendingOk world write)
    (idle : Idle world later) : PendingOk later write where
  holder := ok.holder
  duration := ok.duration
  reading := idle.readings _ ok.reading
  unstored := by rw [idle.history]; exact ok.unstored
  takeover revision spec update := by
    have ⟨known, old⟩ := ok.takeover revision spec update
    refine ⟨Nat.le_trans known idle.revision, ?_⟩
    intro version member same
    rw [idle.history] at member
    exact (old version member same).imp id (fun aged => Nat.le_trans aged idle.now)

theorem Safe.idle (safe : Safe world) (idle : Idle world later)
    (same : later.electors = world.electors) : Safe later where
  history := safe.history.idle idle
  electors candidate := by
    rw [same]
    exact (safe.electors candidate).extend (idle.extends candidate)
  pending write member := (safe.pending write (idle.pending.subset member)).idle idle
  distinct := safe.distinct.sublist idle.pending

theorem HistoryOk.unique (ok : HistoryOk world) {left right : Stored}
    (inLeft : left ∈ world.history) (inRight : right ∈ world.history)
    (same : left.revision = right.revision) : left = right := by
  by_contra different
  have symmetric : Std.Symm fun first second : Stored => first.revision ≠ second.revision :=
    ⟨fun _ _ distinct => distinct.symm⟩
  have distinct : world.history.Pairwise fun first second => first.revision ≠ second.revision :=
    ok.ordered.imp fun less => Nat.ne_of_gt less.1
  exact distinct.forall inLeft inRight different same

namespace ElectorOk

variable {elector : Elector}

variable (ok : ElectorOk world candidate elector)

include ok

theorem quiet (entered : elector.phase ≠ .starting) {phase : Phase} (none : phase.attempt? = none) :
    ElectorOk world candidate { elector with phase } where
  term := ok.term
  closed _ := ok.closed entered
  began := by simp [none]
  accepted attempt answered := by
    obtain rfl : phase = .answered attempt true := answered
    simp [Phase.attempt?] at none
  observed := ok.observed
  read attempt spec revision got := by
    obtain rfl : phase = .gotLease attempt (some (spec, revision)) := got
    simp [Phase.attempt?] at none
  unwritten attempt early := by
    rcases early with rfl | ⟨lease, rfl⟩ <;> simp [Phase.attempt?] at none

theorem shut :
    ElectorOk world candidate { elector with gate := .follower, phase := .resting false } := by
  refine ⟨?_, ?_, ?_, ?_, ok.observed, ?_, ?_⟩ <;> simp [Phase.attempt?]

theorem hear (number : Nat) (accepted : Bool) (stored : accepted = true → ∃ version ∈ world.history,
      version.spec.holderIdentity = candidate.val ∧ world.now ≤ version.storedAt) :
    ElectorOk world candidate (elector.hear number accepted) := by
  unfold Elector.hear
  cases phase : elector.phase with
  | writing attempt waiting =>
    dsimp only
    split_ifs with same
    · have began := ok.began attempt (by simp [phase, Phase.attempt?])
      refine ⟨ok.term, fun _ => ok.closed (by simp [phase]), ?_, ?_, ok.observed, by simp, by simp⟩
      · intro other trying
        obtain rfl : attempt = other := by simpa [Phase.attempt?] using trying
        exact began
      · intro other answered
        obtain ⟨rfl, yes⟩ : attempt = other ∧ accepted = true := by simpa using answered
        have ⟨version, member, holder, after⟩ := stored yes
        exact ⟨version, member, holder, Nat.le_trans began after⟩
    · exact ok
  | _ => exact ok

theorem finish {attempt : Attempt} (answered : elector.phase = .answered attempt true) :
    ElectorOk world candidate (elector.finish attempt world.now) := by
  have ⟨version, member, holder, after⟩ := ok.accepted attempt answered
  have entered : elector.phase ≠ .starting := by simp [answered]
  have extended : attempt.attempted + renewDeadline ≤ version.storedAt + renewDeadline :=
    Nat.add_le_add_right after _
  -- the phase after it is outside an attempt, so only the gate is left to check
  have gated (gate : Permission) (phase : Phase) (none : phase.attempt? = none)
      (bounded : ∀ expires, gate = .leader expires → ∃ version ∈ world.history,
        version.spec.holderIdentity = candidate.val ∧ expires ≤ version.storedAt + renewDeadline)
      (limited : gate ≠ .unrestricted) :
      ElectorOk world candidate { elector with gate, phase } := by
    exact { ok.quiet entered none with term := bounded, closed := fun _ => limited }
  unfold Elector.finish
  split_ifs with holding
  · unfold Permission.renew
    cases gate : elector.gate with
    | unrestricted | follower => exact gated .follower .ended rfl (by simp) (by simp)
    | leader expires =>
      dsimp only
      by_cases alive : world.now < expires
      · rw [if_pos alive]
        refine gated _ _ rfl ?_ (by simp)
        intro bound equal
        obtain rfl : max expires (attempt.attempted + renewDeadline) = bound := by simpa using equal
        rcases Nat.le_total expires (attempt.attempted + renewDeadline) with less | more
        · exact ⟨version, member, holder, by rw [Nat.max_eq_right less]; exact extended⟩
        · rw [Nat.max_eq_left more]
          exact ok.term expires gate
      · rw [if_neg alive]
        exact gated .follower .ended rfl (by simp) (by simp)
  · refine gated _ _ rfl ?_ (by simp [Permission.start])
    intro bound equal
    obtain rfl : attempt.attempted + renewDeadline = bound := by
      simpa [Permission.start] using equal
    exact ⟨version, member, holder, extended⟩

end ElectorOk

theorem expired_spec (observation : Observation) (spec : LeaseSpec) (duration now : Nat) :
    ∃ observedAt, (observation.expired spec duration now).1 = some (spec, observedAt) ∧
      (observation = some (spec, observedAt) ∨ observedAt = now) ∧
      ((observation.expired spec duration now).2 = true → duration ≤ now - observedAt) := by
  unfold Observation.expired
  cases observation with
  | none => exact ⟨now, rfl, .inr rfl, by simp⟩
  | some seen =>
    have ⟨record, observedAt⟩ := seen
    dsimp only
    split_ifs with same
    · subst same
      exact ⟨observedAt, rfl, .inl rfl, by simp⟩
    · exact ⟨now, rfl, .inr rfl, by simp⟩

/-- What `try_acquire_or_renew` sends after it read a Lease of positive duration. -/
structure Decision (identity : Identity) (wall : Int) (spec : LeaseSpec) (revision : Nat)
    (expired : Bool) (write : LeaseWrite) : Prop where
  update : ∃ record, write = .update revision record
  holder : write.spec.holderIdentity = identity.val
  duration : write.spec.leaseDurationSeconds = leaseDurationSecs
  renewTime : write.spec.renewTime = wall
  entitled : spec.holderIdentity = identity.val ∨ spec.holderIdentity = "" ∨ expired = true

theorem tryAcquireOrRenew_spec (identity : Identity) (wall : Int) (observation : Observation)
    (spec : LeaseSpec) (revision now : Nat) (positive : 0 < spec.leaseDurationSeconds) :
    let seen := observation.expired spec (seconds spec.leaseDurationSeconds.toNat) now
    let result := tryAcquireOrRenew identity wall observation (some (spec, revision)) now
    result.1 = seen.1 ∧
      ∀ write, result.2 = some write → Decision identity wall spec revision seen.2 write := by
  have notExpiring : ¬ spec.leaseDurationSeconds ≤ 0 := by omega
  unfold tryAcquireOrRenew
  dsimp only
  split_ifs with foreign ours
  · exact ⟨rfl, fun write sent => by simp at sent⟩
  · refine ⟨rfl, fun write sent => ?_⟩
    cases sent
    exact ⟨⟨_, rfl⟩, rfl, rfl, rfl, .inl ours⟩
  · refine ⟨rfl, fun write sent => ?_⟩
    cases sent
    refine ⟨⟨_, rfl⟩, rfl, rfl, rfl, .inr ?_⟩
    by_cases empty : spec.holderIdentity = ""
    · exact .inl empty
    · exact .inr (by simpa [ours, empty] using foreign)

end Rustkube.Lease
