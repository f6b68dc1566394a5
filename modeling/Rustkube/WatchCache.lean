import Rustkube.Lib.Window
import Rustkube.WatchEvent

namespace Rustkube.WatchCache

open Storage

def RING_CAPACITY : Nat := 1024

def BROADCAST_CAPACITY : Nat := 1024

/-- Seconds without progress after which a prefix is compared with the datastore. -/
def STALL_SECS : Nat := 30

abbrev Numbered := Nat × WatchEvent

/-- The cache of one prefix, for the life of one upstream watch. `sent` is everything the broadcast
channel was given; a receiver is a position in it. -/
structure PrefixCache where
  sent : List Numbered
  ring : List Numbered
  nextSeq : Nat
  pumpStartRev : Nat
  snapshot : Keyspace
  snapshotRev : Nat
  terminated : Bool
  lastProgress : Nat

/-- `tx.send` of an event under the next sequence number. -/
def PrefixCache.report (cache : PrefixCache) (event : WatchEvent) : PrefixCache :=
  { cache with sent := cache.sent ++ [(cache.nextSeq, event)], nextSeq := cache.nextSeq + 1 }

/-- What the pump does to the snapshot, and the event with the state that it replaces. -/
def record (snapshot : Keyspace) : WatchEvent → Keyspace × WatchEvent
  | .added key value revision =>
    (snapshot.insert ⟨key, value, revision⟩, .added key value revision)
  | .modified key value revision prevValue =>
    (snapshot.insert ⟨key, value, revision⟩,
      .modified key value revision (prevValue.or ((snapshot.get? key).map (·.value))))
  | .deleted key revision prevValue =>
    (snapshot.remove key,
      .deleted key revision (prevValue.or ((snapshot.get? key).map (·.value))))
  | event => (snapshot, event)

@[simp] theorem record_revision (snapshot : Keyspace) (event : WatchEvent) :
    (record snapshot event).2.revision = event.revision := by
  cases event <;> rfl

@[simp] theorem record_isError (snapshot : Keyspace) (event : WatchEvent) :
    (record snapshot event).2.isError = event.isError := by
  cases event <;> rfl

theorem record_snapshot (snapshot before : Keyspace) (change : Change) :
    (record snapshot (change.event before)).1 = change.apply snapshot := by
  unfold Change.event Change.apply
  cases change.value with
  | none => rfl
  | some value =>
    split_ifs <;> rfl

/-- Where the pump task stands. Other tasks may run between any two of these. -/
inductive Pump where
  /-- Awaiting the upstream watch: the only place where it can be aborted. -/
  | receiving
  | received (seq : Nat) (event : WatchEvent)
  /-- The snapshot has the event, the snapshot's revision is still the old one. -/
  | recorded (seq : Nat) (event : WatchEvent)
  | revised (seq : Nat) (event : WatchEvent)
  /-- The ring has the event, the subscribers do not. -/
  | pushed (seq : Nat) (event : WatchEvent)
  | ending
  /-- The cache is marked, the subscribers are not told. -/
  | terminated
  | reported
  | done

/-- Where the freshness task stands. -/
inductive Freshness where
  | sleeping
  | checked (current : Nat)
  | seeded (snapshot : Keyspace) (revision : Nat)
  /-- The snapshot is the seed, the snapshot's revision is still the old one. -/
  | swapped (changed : Bool) (revision : Nat)
  | missed (revision : Nat)
  | terminated (revision : Nat)
  | reported
  | removed
  | stopped

/-- The task that feeds one cached watch: where its receiver is in the channel, what of the ring it
has not handed over yet, and what it has handed over. -/
structure Stream where
  start : Nat
  next : Nat
  backlog : List Numbered
  lastSeq : Nat
  handed : List WatchEvent

inductive Ending where
  | error (event : WatchEvent)
  /-- The channel's sender is gone. -/
  | closed
  /-- The client is gone. -/
  | left

/-- A call of `watch`, up to the end of its stream. -/
inductive Watcher where
  | idle
  | opened (start : Nat)
  | subscribed (start next : Nat)
  | replayed (start next : Nat) (gap : Bool) (backlog : List Numbered)
  /-- Served by a store watch of its own. -/
  | store (start : Nat)
  | streaming (stream : Stream)
  | ended (stream : Stream) (ending : Ending)

/-- The reads of the snapshot that report its revision. -/
inductive Read where
  | list (limit : Nat) (continueToken : Option String)
  | readPage (subPrefix : String) (limit : Nat) (afterKey : Option String)
  | readOne (key : String)
  | snapshot

inductive Reply where
  | page (page : CachePage)
  | one (object : Option KeyValue) (revision : Nat)
  | all (objects : List (String × Bytes)) (revision : Nat)

def Reply.revision : Reply → Nat
  | .page found => found.revision
  | .one _ revision => revision
  | .all _ revision => revision

/-- A page of everything in the snapshot, from after the continue key on. -/
def listSnapshot (snapshot : CacheSnapshot) (limit : Nat) (continueToken : Option String) :
    CachePage :=
  let range := snapshot.kvs.filter fun kv => match continueToken with
    | some key => decide (Text.utf8 key < Text.utf8 kv.key)
    | none => true
  let items := if limit = 0 then range else range.take limit
  let left := range.length - items.length
  { items, continueKey := if 0 < left then items.getLast?.map (·.key) else none,
    revision := snapshot.revision, remaining := if 0 < left then some left else none }

/-- The answer of a read, from the objects and the revision it finds. -/
def Read.answer (objects : Keyspace) (revision : Nat) : Read → Reply
  | .list limit continueToken => .page (listSnapshot ⟨objects.kvs, revision⟩ limit continueToken)
  | .readPage subPrefix limit afterKey =>
    .page (CacheSnapshot.readPage ⟨objects.kvs, revision⟩ subPrefix limit afterKey)
  | .readOne key => .one (objects.get? key) revision
  | .snapshot => .all (objects.kvs.map fun kv => (kv.key, kv.value)) revision

/-- `snapshot` reads at once, the others first wait for the revision they need. -/
def Read.waits : Read → Bool
  | .snapshot => false
  | _ => true

inductive Reader where
  | idle
  | waited (minRev : Nat)
  | answered (minRev : Nat) (read : Read) (reply : Reply)

/-- The datastore, the cache, and the tasks on it. Watchers and readers only look at the cache, so
one of each stands for all. -/
structure System where
  store : EventStore
  now : Nat
  cache : PrefixCache
  /-- Whether the table of caches still has it. -/
  listed : Bool
  /-- Whether the freshness task has aborted the pump. -/
  aborted : Bool
  /-- How many writes of the log the upstream watch has delivered. -/
  delivered : Nat
  pump : Pump
  freshness : Freshness
  watcher : Watcher
  reader : Reader

/-- What the upstream watch gives the pump. -/
inductive Upstream where
  | next
  | error (code : Nat) (message : String) (revision : Nat)
  | closed
  | aborted

inductive Action where
  | write (key : String) (value : Option Bytes)
  | writeElsewhere
  | elapse (seconds : Nat)
  | receive (upstream : Upstream)
  | pump
  | freshness
  | watch (startRev : Nat)
  | watcher
  | leave
  | wait (minRev : Nat)
  | read (read : Read)

namespace System

/-- A prefix right after `ensure` opened it: seeded at the datastore's revision, with the upstream
watch from the next revision on. -/
def opened (store : EventStore) (now : Nat) : System where
  store
  now
  cache := {
    sent := []
    ring := []
    nextSeq := 1
    pumpStartRev := store.revision
    snapshot := store.contentAt store.revision
    snapshotRev := store.revision
    terminated := false
    lastProgress := now }
  listed := true
  aborted := false
  delivered := store.log.length
  pump := .receiving
  freshness := .sleeping
  watcher := .idle
  reader := .idle

variable (system : System)

/-- Take an event off the upstream watch and number it. -/
def numbered (event : WatchEvent) : System :=
  { system with
    cache := { system.cache with nextSeq := system.cache.nextSeq + 1 }
    pump := .received system.cache.nextSeq event }

def receive (upstream : Upstream) : Option System :=
  match system.pump, upstream with
  | .receiving, .next =>
    match system.store.log[system.delivered]? with
    | some change =>
      let before := Change.replay (system.store.log.take system.delivered)
      some ({ system with delivered := system.delivered + 1 }.numbered (change.event before))
    | none => none
  | .receiving, .error code message revision =>
    some (system.numbered (.error code message revision))
  | .receiving, .closed => some { system with pump := .ending }
  | .receiving, .aborted => if system.aborted then some { system with pump := .done } else none
  | _, _ => none

def pumpStep : Option System :=
  match system.pump with
  | .receiving => none
  | .received seq event =>
    if event.isError then
      some { system with
        cache := { system.cache with sent := system.cache.sent ++ [(seq, event)] }
        pump := .ending }
    else
      let recorded := record system.cache.snapshot event
      some { system with
        cache := { system.cache with snapshot := recorded.1 }
        pump := .recorded seq recorded.2 }
  | .recorded seq event =>
    some { system with
      cache := { system.cache with snapshotRev := event.revision }
      pump := .revised seq event }
  | .revised seq event =>
    some { system with
      cache := { system.cache with
        lastProgress := system.now
        ring := Window.push RING_CAPACITY system.cache.ring (seq, event) }
      pump := .pushed seq event }
  | .pushed seq event =>
    some { system with
      cache := { system.cache with sent := system.cache.sent ++ [(seq, event)] }
      pump := .receiving }
  | .ending =>
    some { system with cache := { system.cache with terminated := true }, pump := .terminated }
  | .terminated =>
    some { system with
      cache := system.cache.report
        (.error 503 "datastore watch disconnected" system.cache.snapshotRev)
      pump := .reported }
  | .reported => some { system with listed := false, pump := .done }
  | .done => none

/-- One tick of the freshness task, or the next of its steps in a tick. -/
def freshnessStep : Option System :=
  match system.freshness with
  | .sleeping =>
    if !system.listed then some { system with freshness := .stopped }
    else if system.now - system.cache.lastProgress < STALL_SECS then none
    else some { system with freshness := .checked system.store.revision }
  | .checked current =>
    if system.cache.snapshotRev < current then
      some { system with
        freshness := .seeded (system.store.contentAt system.store.revision) system.store.revision }
    else some { system with freshness := .sleeping }
  | .seeded snapshot revision =>
    some { system with
      cache := { system.cache with snapshot }
      freshness := .swapped (system.cache.snapshot.kvs ≠ snapshot.kvs) revision }
  | .swapped changed revision =>
    some { system with
      cache := { system.cache with snapshotRev := revision, lastProgress := system.now }
      freshness := if changed then .missed revision else .sleeping }
  | .missed revision =>
    some { system with
      cache := { system.cache with terminated := true }
      freshness := .terminated revision }
  | .terminated revision =>
    some { system with
      cache := system.cache.report
        (.error 410 "watch cache resynchronized after missed events" revision)
      freshness := .reported }
  | .reported => some { system with listed := false, freshness := .removed }
  | .removed => some { system with aborted := true, freshness := .sleeping }
  | .stopped => none

/-- Whether every task that could still send has let go of the channel. -/
def dropped : Bool :=
  !system.listed && (match system.pump with | .done => true | _ => false) &&
    (match system.freshness with | .stopped => true | _ => false)

/-- Whether the ring lost an event that a watch from `start` needs. -/
def ringGap (start : Nat) : Bool :=
  system.cache.ring.head?.any fun front => 1 < front.1 && start < front.2.revision

def fellBehind (start : Nat) : WatchEvent :=
  .error 410 "watch consumer fell behind retained history" start

/-- One turn of the task that feeds a client. -/
def feed (stream : Stream) : Option Watcher :=
  match stream.backlog with
  | (seq, event) :: rest =>
    some (.streaming { stream with
      backlog := rest, lastSeq := seq, handed := stream.handed ++ [event] })
  | [] =>
    if BROADCAST_CAPACITY < system.cache.sent.length - stream.next then
      some (.ended stream (.error (fellBehind stream.start)))
    else
      match system.cache.sent[stream.next]? with
      | some (seq, event) =>
        if event.isError then some (.ended stream (.error event))
        else if stream.lastSeq < seq && stream.start < event.revision then
          some (.streaming { stream with
            next := stream.next + 1, handed := stream.handed ++ [event] })
        else some (.streaming { stream with next := stream.next + 1 })
      | none => if system.dropped then some (.ended stream .closed) else none

/-- The next step of the watcher's call of `watch`, or of its stream. -/
def watcherStep : Option Watcher :=
  match system.watcher with
  | .idle => none
  | .opened start => some (.subscribed start system.cache.sent.length)
  | .subscribed start next =>
    some (.replayed start next (system.ringGap start)
      (system.cache.ring.filter fun (_, event) => decide (start < event.revision)))
  | .replayed start next gap backlog =>
    if system.cache.terminated || decide (start < system.cache.pumpStartRev) || gap then
      some (.store start)
    else some (.streaming ⟨start, next, backlog, 0, []⟩)
  | .store _ => none
  | .streaming stream => system.feed stream
  | .ended _ _ => none

def step : Action → Option System
  | .write key value => some { system with store := system.store.write key value }
  | .writeElsewhere => some { system with store := system.store.advance }
  | .elapse seconds => some { system with now := system.now + seconds }
  | .receive upstream => system.receive upstream
  | .pump => system.pumpStep
  | .freshness => system.freshnessStep
  | .watch startRev =>
    -- revision 0 is "from now"
    let start := if startRev = 0 then system.cache.snapshotRev else startRev
    match system.watcher with
    | .idle => some { system with watcher := .opened start }
    | _ => none
  | .watcher => system.watcherStep.map fun watcher => { system with watcher }
  | .leave =>
    match system.watcher with
    | .streaming stream => some { system with watcher := .ended stream .left }
    | _ => none
  | .wait minRev =>
    if minRev ≤ system.cache.snapshotRev then some { system with reader := .waited minRev }
    else none
  | .read read =>
    let reply := read.answer system.cache.snapshot system.cache.snapshotRev
    match system.reader with
    | .waited minRev => some { system with reader := .answered minRev read reply }
    | _ => if read.waits then none else some { system with reader := .answered 0 read reply }

variable {after system : System}

theorem receive_others {upstream : Upstream} (received : system.receive upstream = some after) :
    after.watcher = system.watcher ∧ after.reader = system.reader ∧
      after.freshness = system.freshness ∧ after.store = system.store := by
  unfold receive at received
  split at received
  case h_1 =>
    split at received
    · cases received
      exact ⟨rfl, rfl, rfl, rfl⟩
    · simp at received
  case h_5 => simp at received
  all_goals
    try split_ifs at received
    cases received
    exact ⟨rfl, rfl, rfl, rfl⟩

theorem pumpStep_others (pumped : system.pumpStep = some after) :
    after.watcher = system.watcher ∧ after.reader = system.reader ∧
      after.freshness = system.freshness ∧ after.store = system.store := by
  unfold pumpStep at pumped
  split at pumped
  case h_1 | h_9 => simp at pumped
  case h_2 =>
    split_ifs at pumped
    all_goals
      cases pumped
      exact ⟨rfl, rfl, rfl, rfl⟩
  all_goals
    cases pumped
    exact ⟨rfl, rfl, rfl, rfl⟩

theorem freshnessStep_others (checked : system.freshnessStep = some after) :
    after.watcher = system.watcher ∧ after.reader = system.reader ∧ after.pump = system.pump ∧
      after.store = system.store ∧ after.delivered = system.delivered := by
  unfold freshnessStep at checked
  split at checked
  case h_1 | h_2 =>
    split_ifs at checked
    all_goals
      cases checked
      exact ⟨rfl, rfl, rfl, rfl, rfl⟩
  case h_9 => simp at checked
  all_goals
    cases checked
    exact ⟨rfl, rfl, rfl, rfl, rfl⟩

/-- What each action does, one case for each way it can be taken. -/
inductive Moved : Action → System → Prop
  | write (key : String) (value : Option Bytes) :
    Moved (.write key value) { system with store := system.store.write key value }
  | writeElsewhere : Moved .writeElsewhere { system with store := system.store.advance }
  | elapse (seconds : Nat) : Moved (.elapse seconds) { system with now := system.now + seconds }
  | receive {upstream : Upstream} {after : System}
    (received : system.receive upstream = some after) : Moved (.receive upstream) after
  | pump {after : System} (pumped : system.pumpStep = some after) : Moved .pump after
  | freshness {after : System} (checked : system.freshnessStep = some after) :
    Moved .freshness after
  | watch (startRev start : Nat) : Moved (.watch startRev) { system with watcher := .opened start }
  | watcher {watcher : Watcher} (watched : system.watcherStep = some watcher) :
    Moved .watcher { system with watcher }
  | leave {stream : Stream} (streaming : system.watcher = .streaming stream) :
    Moved .leave { system with watcher := .ended stream .left }
  | wait {minRev : Nat} (reached : minRev ≤ system.cache.snapshotRev) :
    Moved (.wait minRev) { system with reader := .waited minRev }
  | read (read : Read) {minRev : Nat} (waited : minRev = 0 ∨ system.reader = .waited minRev) :
    Moved (.read read) { system with
      reader := .answered minRev read (read.answer system.cache.snapshot system.cache.snapshotRev) }

theorem step_moved {action : Action}
    (stepped : system.step action = some after) : system.Moved action after := by
  unfold step at stepped
  split at stepped
  case h_1 key value =>
    cases stepped
    exact .write key value
  case h_2 =>
    cases stepped
    exact .writeElsewhere
  case h_3 seconds =>
    cases stepped
    exact .elapse seconds
  case h_4 upstream => exact .receive stepped
  case h_5 => exact .pump stepped
  case h_6 => exact .freshness stepped
  case h_7 startRev =>
    dsimp only at stepped
    split at stepped
    · cases stepped
      exact .watch startRev _
    · simp at stepped
  case h_8 =>
    obtain ⟨watcher, watched, rfl⟩ := Option.map_eq_some_iff.mp stepped
    exact .watcher watched
  case h_9 =>
    split at stepped
    · rename_i streaming
      cases stepped
      exact .leave streaming
    · simp at stepped
  case h_10 minRev =>
    split_ifs at stepped with reached
    cases stepped
    exact .wait reached
  case h_11 read =>
    split at stepped
    · rename_i waited
      cases stepped
      exact .read read (.inr waited)
    · split_ifs at stepped
      cases stepped
      exact .read read (.inl rfl)

/-- The states that any order of the steps leads to. -/
abbrev Reachable (store : EventStore) (now : Nat) : System → Prop :=
  Transition.Reaches step (fun _ _ => True) (opened store now)

end System

end Rustkube.WatchCache
