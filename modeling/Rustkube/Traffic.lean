import Rustkube.Create
import Rustkube.ObjectDelete

namespace Rustkube

open List ObjectStore Json

/-- A request on the object of one key. -/
inductive KeyRequest where
  | write (name : String) (ns : Option String) (change : ObjectWrite)
  | create (given : Creation) (request : CreateRequest)
  | delete (deletion : Deletion)
  | evict (eviction : Eviction)
  /-- The DELETE of a Namespace. -/
  | terminate (options : DeleteOptions) (now : String)
  /-- `PUT /api/v1/namespaces/{name}/finalize` -/
  | finalize (body : Value)
  /-- A handler that removes the key without a look at what it holds: the DELETE of `events.k8s.io`,
  which ignores its options, and the restart of a virtual machine, which has none. -/
  | remove (options : DeleteOptions)

/-- The options of a DELETE, and the version that passed its checks. -/
abbrev Checks := DeleteOptions × Entry

/-- What a request comes to once its handler has read the key: a write on what it read, a guaranteed
update that starts with a read of its own, or nothing. -/
inductive Plan where
  | commit (read : Option Entry) (commit : Commit)
  | update (name : String) (ns : Option String) (change : ObjectWrite) (checks : Option Checks)
  | nothing

namespace KeyRequest

variable (api : Api) (codec : Patch.Codec) (key : String) (store : ObjectStore)

/-- The handler of a request on a Namespace. -/
def planNamespace (prepare : Value → Except Failure (Option Commit)) : Except Failure Plan :=
  if !Text.startsWith key "/registry/namespaces/" then pure .nothing
  else do
    let existing ← store.get key
    let commit ← prepare existing
    pure ((commit.map (.commit (store.entries key))).getD .nothing)

/-- The handler of a request up to its write. The removal by a DELETE or an eviction has no
condition on the version that was read. -/
def plan : KeyRequest → Except Failure Plan
  | .write name ns change => do
    let existing ← store.get key
    let commit ← change.prepare api codec key name ns existing
    pure (.commit (store.entries key) commit)
  | .create given request => do
    let (name, draft) ← request.draft codec given.suffix
    let obj ← request.object api given name draft
    pure (if request.key name = key then .commit none (.update obj (some 0)) else .nothing)
  | .delete deletion => do
    let existing ← store.get key
    let verdict ← deletion.verdict api existing
    pure (match verdict with
      | .nothing => .nothing
      | .mark => .update deletion.name deletion.ns
          (.update deletion.options.preconditionRv deletion.mark)
          ((store.entries key).map (deletion.options, ·))
      | .remove => .commit (store.entries key) (.delete existing none))
  | .evict eviction => do
    let pod ← store.get key
    let removes ← eviction.verdict api pod
    pure (if removes then .commit (store.entries key) (.delete pod none) else .nothing)
  | .terminate options now => planNamespace key store (terminateNamespace api options now)
  | .finalize body => planNamespace key store (finalizeNamespace body)
  | .remove _ => pure (.commit none (.delete .null none))

/-- A guaranteed update reads again when it has lost its swap. -/
def retries : KeyRequest → Bool
  | .write _ _ change => change.guaranteed
  | _ => false

end KeyRequest

/-- A request between its read and its write. The mark of a DELETE has its checks. -/
structure Attempt where
  api : Api
  codec : Patch.Codec
  read : Option Entry
  commit : Commit
  checks : Option Checks

/-- A request is about to read, or about to write. -/
inductive Stage where
  | reading (checks : Option Checks)
  | writing (attempt : Attempt)

/-- A request under way. -/
structure Call where
  request : KeyRequest
  stage : Stage

/-- A write that reached the store, with what the key held before and after it. -/
structure Landing where
  request : KeyRequest
  attempt : Attempt
  before : Option Entry
  after : Option Entry

/-- A write by anything else that uses the store. -/
inductive ForeignWrite where
  | put (object : Value) (prevRevision : Option Nat)
  | delete (prevRevision : Option Nat)

def ForeignWrite.land (store : ObjectStore) (key : String) :
    ForeignWrite → Except StoreError ObjectStore
  | .put object prevRevision => store.put key object prevRevision
  | .delete prevRevision => store.delete key prevRevision

/-- The requests on one key: the store, those under way, the writes that landed, and every version
the key has held. -/
structure Traffic where
  store : ObjectStore
  calls : List Call
  landed : List Landing
  versions : List Entry

/-- A request arrives; reads and prepares its write, in the surroundings it meets then; or writes.
One that has lost its swap goes on while it has time for another attempt. -/
inductive TrafficAction where
  | arrive (request : KeyRequest)
  | prepare (index : Nat) (api : Api) (codec : Patch.Codec)
  | commit (index : Nat) (inTime : Bool)
  | foreign (key : String) (write : ForeignWrite)

namespace Traffic

variable (key : String)

def start (store : ObjectStore) : Traffic := ⟨store, [], [], (store.entries key).toList⟩

def prepare (traffic : Traffic) (index : Nat) (request : KeyRequest) (checks : Option Checks)
    (api : Api) (codec : Patch.Codec) : Traffic :=
  match request.plan api codec key traffic.store with
  | .ok (.commit read commit) => { traffic with
      calls := traffic.calls.set index ⟨request, .writing ⟨api, codec, read, commit, checks⟩⟩ }
  | .ok (.update name ns change checks) =>
    { traffic with calls := traffic.calls.set index ⟨.write name ns change, .reading checks⟩ }
  | .ok .nothing => { traffic with calls := traffic.calls.eraseIdx index }
  | .error _ => { traffic with calls := traffic.calls.eraseIdx index }

def land (traffic : Traffic) (index : Nat) (request : KeyRequest) (attempt : Attempt)
    (inTime : Bool) : Traffic :=
  match attempt.commit.land attempt.api.rules traffic.store key with
  | .ok after =>
    ⟨after, traffic.calls.eraseIdx index,
      traffic.landed ++ [⟨request, attempt, traffic.store.entries key, after.entries key⟩],
      traffic.versions ++ (after.entries key).toList⟩
  | .error _ =>
    if inTime && request.retries then
      { traffic with calls := traffic.calls.set index ⟨request, .reading attempt.checks⟩ }
    else { traffic with calls := traffic.calls.eraseIdx index }

def foreign (traffic : Traffic) (other : String) (write : ForeignWrite) : Option Traffic :=
  match write.land traffic.store other with
  | .ok after => some { traffic with
      store := after
      versions := traffic.versions ++ if other = key then (after.entries key).toList else [] }
  | .error _ => none

def step (traffic : Traffic) : TrafficAction → Option Traffic
  | .arrive request => some { traffic with calls := traffic.calls ++ [⟨request, .reading none⟩] }
  | .prepare index api codec =>
    match traffic.calls[index]? with
    | some ⟨request, .reading checks⟩ => some (traffic.prepare key index request checks api codec)
    | _ => none
  | .commit index inTime =>
    match traffic.calls[index]? with
    | some ⟨request, .writing attempt⟩ => some (traffic.land key index request attempt inTime)
    | _ => none
  | .foreign other write => traffic.foreign key other write

end Traffic

variable {key : String}

/-- A version that was stored, and is not overwritten in secret. -/
structure Known (key : String) (store : ObjectStore) (entry : Entry) : Prop where
  positive : 0 < entry.modRevision
  remembered : store.Remembers key entry

/-- The write is the mark of a DELETE, which has checked a version. -/
structure Checks.Sound (key : String) (store : ObjectStore) (request : KeyRequest)
    (checks : Checks) : Prop where
  known : Known key store checks.2
  passed : ∃ existing, Storage.injectResourceVersion checks.2.object checks.2.modRevision =
      some existing ∧ checkPreconditions existing checks.1 = .ok ()
  marks : ∃ name ns mutate, request = .write name ns (.update checks.1.preconditionRv mutate)

/-- What a request is about to write was prepared on what it read. -/
structure Attempt.Sound (key : String) (store : ObjectStore) (request : KeyRequest)
    (attempt : Attempt) : Prop where
  known : ∀ entry ∈ attempt.read, Known key store entry
  origin : ∃ earlier, request.plan attempt.api attempt.codec key earlier =
    .ok (.commit attempt.read attempt.commit)
  checks : ∀ checks ∈ attempt.checks, checks.Sound key store request

def Stage.Sound (key : String) (store : ObjectStore) (request : KeyRequest) : Stage → Prop
  | .reading passed => ∀ checks ∈ passed, checks.Sound key store request
  | .writing attempt => attempt.Sound key store request

/-- The requests under way are sound. -/
def Traffic.Sound (key : String) (traffic : Traffic) : Prop :=
  ∀ call ∈ traffic.calls, call.stage.Sound key traffic.store call.request

variable {store : ObjectStore} {request : KeyRequest} {entry : Entry}

theorem Known.of_read (found : store.entries key = some entry) : Known key store entry :=
  ⟨(store.stamped key entry found).1, .of_read found⟩

section

variable {api : Api} {codec : Patch.Codec} {read : Option Entry} {commit : Commit}

theorem KeyRequest.planNamespace_ok {prepare : Value → Except Failure (Option Commit)}
    (planned : planNamespace key store prepare = .ok (.commit read commit)) :
    Text.startsWith key "/registry/namespaces/" = true ∧ ∃ existing, store.get key = .ok existing ∧
      prepare existing = .ok (some commit) ∧ read = store.entries key := by
  unfold planNamespace at planned
  split_ifs at planned with other
  · cases pure_eq_ok.mp planned
  · have ⟨existing, got, planned⟩ := bind_eq_ok.mp planned
    have ⟨prepared, prepares, planned⟩ := bind_eq_ok.mp planned
    cases prepared with
    | none => cases pure_eq_ok.mp planned
    | some prepared =>
      cases pure_eq_ok.mp planned
      exact ⟨by simpa using other, existing, got, prepares, rfl⟩

/-- A commit is on the version that is stored. Only a DELETE goes on with a guaranteed update, which
is conditional as its options say. -/
def Plan.Sound (key : String) (store : ObjectStore) : Plan → Prop
  | .commit read _ => ∀ entry ∈ read, store.entries key = some entry
  | .update name ns change passed =>
    ∀ checks ∈ passed, checks.Sound key store (.write name ns change)
  | .nothing => True

theorem KeyRequest.planNamespace_sound {prepare : Value → Except Failure (Option Commit)}
    {plan : Plan} (planned : planNamespace key store prepare = .ok plan) :
    plan.Sound key store := by
  unfold planNamespace at planned
  split_ifs at planned
  · cases pure_eq_ok.mp planned
    trivial
  · have ⟨_, _, planned⟩ := bind_eq_ok.mp planned
    have ⟨prepared, _, planned⟩ := bind_eq_ok.mp planned
    cases prepared <;> cases pure_eq_ok.mp planned
    · trivial
    · exact fun _ => id

theorem KeyRequest.plan_sound {plan : Plan}
    (planned : request.plan api codec key store = .ok plan) : plan.Sound key store := by
  cases request with
  | write name ns change =>
    have ⟨_, _, planned⟩ := bind_eq_ok.mp planned
    have ⟨_, _, planned⟩ := bind_eq_ok.mp planned
    cases pure_eq_ok.mp planned
    exact fun _ => id
  | create given request =>
    have ⟨_, _, planned⟩ := bind_eq_ok.mp planned
    have ⟨_, _, planned⟩ := bind_eq_ok.mp planned
    rw [← pure_eq_ok.mp planned]
    split_ifs
    · exact nofun
    · trivial
  | delete deletion =>
    have ⟨existing, got, planned⟩ := bind_eq_ok.mp planned
    have ⟨verdict, judged, planned⟩ := bind_eq_ok.mp planned
    have ⟨entry, found, injected⟩ := get_ok got
    have ⟨_, passes, _⟩ := bind_eq_ok.mp judged
    rw [found] at planned
    cases verdict <;> cases pure_eq_ok.mp planned
    · trivial
    · intro checks member
      cases member
      exact ⟨.of_read found, ⟨existing, injected, passes⟩, _, _, _, rfl⟩
    · exact fun _ member => found.trans member
  | evict eviction =>
    have ⟨_, _, planned⟩ := bind_eq_ok.mp planned
    have ⟨_, _, planned⟩ := bind_eq_ok.mp planned
    rw [← pure_eq_ok.mp planned]
    split_ifs
    · exact fun _ => id
    · trivial
  | terminate | finalize => exact planNamespace_sound planned
  | remove options =>
    cases pure_eq_ok.mp planned
    exact nofun

end

variable {after : ObjectStore} {other : String}

theorem ForeignWrite.land_remembers {write : ForeignWrite}
    (landed : write.land store other = .ok after)
    (remembered : store.Remembers key entry) : after.Remembers key entry := by
  cases write with
  | put object prevRevision => exact remembered.put landed
  | delete prevRevision => exact remembered.delete landed

theorem ForeignWrite.land_of_ne {write : ForeignWrite}
    (landed : write.land store other = .ok after) (different : key ≠ other) :
    after.entries key = store.entries key := by
  cases write with
  | put object prevRevision =>
    rw [(put_ok landed).2, write_entries_of_ne _ _ _ different]
  | delete prevRevision =>
    rw [(delete_ok landed).2]
    split_ifs
    · exact erase_entries_of_ne _ _ different
    · rfl

variable {attempt : Attempt}

theorem Stage.Sound.carry {stage : Stage} (sound : stage.Sound key store request)
    (keeps : ∀ entry, store.Remembers key entry → after.Remembers key entry) :
    stage.Sound key after request := by
  have known {entry : Entry} (before : Known key store entry) : Known key after entry :=
    ⟨before.positive, keeps entry before.remembered⟩
  have carried {checks : Checks} (before : checks.Sound key store request) :
      checks.Sound key after request := ⟨known before.known, before.passed, before.marks⟩
  cases stage with
  | reading passed => exact fun checks member => carried (sound checks member)
  | writing attempt =>
    exact ⟨fun entry member => known (sound.known entry member), sound.origin,
      fun checks member => carried (sound.checks checks member)⟩

variable {index : Nat} {change : ObjectWrite} {ns : Option String} {before : Traffic}
  {name : String}

namespace Traffic

variable {traffic after : Traffic} {action : TrafficAction}

section

variable (sound : traffic.Sound key)

include sound

theorem prepare_sound {api : Api} {codec : Patch.Codec} {passed : Option Checks}
    (reading : ∀ checks ∈ passed, checks.Sound key traffic.store request) :
    (traffic.prepare key index request passed api codec).Sound key := by
  unfold prepare
  cases planned : request.plan api codec key traffic.store with
  | error failure => exact fun call member => sound call (mem_of_mem_eraseIdx member)
  | ok plan =>
    cases plan with
    | nothing => exact fun call member => sound call (mem_of_mem_eraseIdx member)
    | update name ns change passed => exact forall_mem_set sound (KeyRequest.plan_sound planned)
    | commit read commit =>
      refine forall_mem_set sound ⟨fun entry isRead => ?_, ⟨traffic.store, planned⟩, reading⟩
      exact .of_read (KeyRequest.plan_sound planned entry isRead)

theorem land_sound {inTime : Bool} (writing : attempt.Sound key traffic.store request) :
    (traffic.land key index request attempt inTime).Sound key := by
  unfold land
  cases landed : attempt.commit.land attempt.api.rules traffic.store key with
  | ok store =>
    intro call member
    exact (sound call (mem_of_mem_eraseIdx member)).carry fun _ => Commit.land_remembers landed
  | error failure =>
    split_ifs
    · exact forall_mem_set sound writing.checks
    · exact fun call member => sound call (mem_of_mem_eraseIdx member)

/-- A step that writes the key, in a sound state. -/
structure Lands (key : String) (before : Traffic) (index : Nat) (request : KeyRequest)
    (attempt : Attempt) (after : ObjectStore) : Prop where
  called : before.calls[index]? = some ⟨request, .writing attempt⟩
  sound : attempt.Sound key before.store request
  landed : attempt.commit.land attempt.api.rules before.store key = .ok after

theorem step_sound (taken : traffic.step key action = some after) : after.Sound key := by
  cases action with
  | arrive request =>
    cases taken
    exact forall_mem_concat sound fun checks member => by cases member
  | prepare index api codec =>
    unfold step at taken
    dsimp only at taken
    split at taken
    · rename_i request passed called
      cases taken
      exact prepare_sound sound (sound _ (mem_of_getElem? called))
    · cases taken
  | commit index inTime =>
    unfold step at taken
    dsimp only at taken
    split at taken
    · rename_i request attempt called
      cases taken
      exact land_sound sound (sound _ (mem_of_getElem? called))
    · cases taken
  | foreign other write =>
    change traffic.foreign key other write = some after at taken
    unfold foreign at taken
    cases landed : write.land traffic.store other with
    | error failure => simp [landed] at taken
    | ok store =>
      rw [landed] at taken
      cases taken
      exact fun call member => (sound call member).carry fun _ => ForeignWrite.land_remembers landed

/-- What a step does to the store: nothing, a write of a request under way, or another writer's. -/
inductive Moved (key : String) (before : Traffic) : TrafficAction → Traffic → Prop
  | quiet {action : TrafficAction} {after : Traffic} (store : after.store = before.store)
      (landed : after.landed = before.landed) (versions : after.versions = before.versions) :
      Moved key before action after
  | landed {index : Nat} {inTime : Bool} {request : KeyRequest} {attempt : Attempt}
      {after : Traffic} (lands : Lands key before index request attempt after.store)
      (landed : after.landed = before.landed ++
        [⟨request, attempt, before.store.entries key, after.store.entries key⟩])
      (versions : after.versions = before.versions ++ (after.store.entries key).toList) :
      Moved key before (.commit index inTime) after
  | foreign {other : String} {write : ForeignWrite} {after : Traffic}
      (writes : write.land before.store other = .ok after.store)
      (landed : after.landed = before.landed)
      (versions : after.versions = before.versions ++
        if other = key then (after.store.entries key).toList else []) :
      Moved key before (.foreign other write) after

theorem step_moved (taken : traffic.step key action = some after) :
    Moved key traffic action after := by
  cases action with
  | arrive request =>
    cases taken
    exact .quiet rfl rfl rfl
  | prepare index api codec =>
    unfold step at taken
    dsimp only at taken
    split at taken
    · cases taken
      unfold prepare
      split <;> exact .quiet rfl rfl rfl
    · cases taken
  | commit index inTime =>
    unfold step at taken
    dsimp only at taken
    split at taken
    · rename_i request attempt called
      cases taken
      have attempted := sound _ (mem_of_getElem? called)
      unfold land
      split
      · rename_i store landed
        exact .landed ⟨called, attempted, landed⟩ rfl rfl
      · split_ifs <;> exact .quiet rfl rfl rfl
    · cases taken
  | foreign other write =>
    change traffic.foreign key other write = some after at taken
    unfold foreign at taken
    split at taken
    · rename_i store writes
      cases taken
      exact .foreign writes rfl rfl
    · cases taken

end

theorem start_sound (store : ObjectStore) : (start key store).Sound key := by
  intro call member
  cases member

/-- What holds of every write as it lands holds of all that have landed. -/
theorem landings {allowed : Traffic → TrafficAction → Prop} {holds : Landing → Prop}
    (reached : Transition.Reaches (step key) allowed (start key store) traffic)
    (lands : ∀ before index inTime request attempt after,
      allowed before (.commit index inTime) → Lands key before index request attempt after →
      holds ⟨request, attempt, before.store.entries key, after.entries key⟩) :
    ∀ landing ∈ traffic.landed, holds landing := by
  have both : traffic.Sound key ∧ ∀ landing ∈ traffic.landed, holds landing := by
    apply reached.invariant
    · exact ⟨start_sound store, by simp [start]⟩
    · intro before action after inv permitted taken
      refine ⟨step_sound inv.1 taken, ?_⟩
      cases step_moved inv.1 taken with
      | quiet _ landed _ =>
        rw [landed]
        exact inv.2
      | foreign _ landed _ =>
        rw [landed]
        exact inv.2
      | landed landing landed _ =>
        rw [landed]
        exact forall_mem_concat inv.2 (lands before _ _ _ _ _ permitted landing)
  exact both.2

end Traffic

theorem Attempt.Sound.write (sound : attempt.Sound key store (.write name ns change)) :
    ∃ entry existing, attempt.read = some entry ∧
      Storage.injectResourceVersion entry.object entry.modRevision = some existing ∧
      change.prepare attempt.api attempt.codec key name ns existing = .ok attempt.commit := by
  have ⟨earlier, planned⟩ := sound.origin
  have ⟨existing, read, planned⟩ := bind_eq_ok.mp planned
  have ⟨commit, prepared, planned⟩ := bind_eq_ok.mp planned
  have ⟨entry, found, injected⟩ := get_ok read
  have same := pure_eq_ok.mp planned
  rw [found] at same
  injection same with isRead isCommit
  exact ⟨entry, existing, isRead.symm, injected, isCommit ▸ prepared⟩

theorem Attempt.Sound.delete {deletion : Deletion}
    (sound : attempt.Sound key store (.delete deletion)) :
    ∃ entry existing, attempt.read = some entry ∧
      Storage.injectResourceVersion entry.object entry.modRevision = some existing ∧
      deletion.verdict attempt.api existing = .ok .remove ∧
          attempt.commit = .delete existing none := by
  have ⟨earlier, planned⟩ := sound.origin
  have ⟨existing, read, planned⟩ := bind_eq_ok.mp planned
  have ⟨verdict, decided, planned⟩ := bind_eq_ok.mp planned
  have ⟨entry, found, injected⟩ := get_ok read
  have same := pure_eq_ok.mp planned
  rw [found] at same
  cases verdict with
  | nothing | mark => cases same
  | remove =>
    injection same with isRead isCommit
    exact ⟨entry, existing, isRead.symm, injected, decided, isCommit.symm⟩

theorem Attempt.Sound.evict {eviction : Eviction}
    (sound : attempt.Sound key store (.evict eviction)) : ∃ entry pod, attempt.read = some entry ∧
      Storage.injectResourceVersion entry.object entry.modRevision = some pod ∧
      attempt.commit = .delete pod none := by
  have ⟨earlier, planned⟩ := sound.origin
  have ⟨pod, read, planned⟩ := bind_eq_ok.mp planned
  have ⟨removes, _, planned⟩ := bind_eq_ok.mp planned
  have ⟨entry, found, injected⟩ := get_ok read
  have same := pure_eq_ok.mp planned
  rw [found] at same
  split_ifs at same
  injection same with isRead isCommit
  exact ⟨entry, pod, isRead.symm, injected, isCommit.symm⟩

/-- The request on a Namespace has prepared its write on what it read. -/
theorem Attempt.Sound.namespaced (sound : attempt.Sound key store request)
    (prepare : Value → Except Failure (Option Commit))
    (plans : ∀ earlier, request.plan attempt.api attempt.codec key earlier =
      KeyRequest.planNamespace key earlier prepare) :
    Text.startsWith key "/registry/namespaces/" = true ∧ ∃ entry existing,
      attempt.read = some entry ∧
      Storage.injectResourceVersion entry.object entry.modRevision = some existing ∧
      prepare existing = .ok (some attempt.commit) := by
  have ⟨earlier, planned⟩ := sound.origin
  rw [plans] at planned
  have ⟨isNamespace, existing, got, prepared, isRead⟩ := KeyRequest.planNamespace_ok planned
  have ⟨entry, found, injected⟩ := get_ok got
  exact ⟨isNamespace, entry, existing, isRead.trans found, injected, prepared⟩

theorem Known.current (known : Known key store entry)
    (same : store.modRevision key = entry.modRevision) : store.entries key = some entry := by
  have ⟨current, found, equal⟩ := expects_stamped known.positive (expects_iff.mpr same)
  rw [found, (known.remembered.current key current found equal).2]

theorem Traffic.Lands.conditional
    (lands : Lands key before index request attempt after) (read : attempt.read = some entry)
    (condition : attempt.commit.prevRevision = some entry.modRevision) :
    before.store.entries key = some entry := by
  have expects := Commit.land_expects lands.landed
  rw [condition] at expects
  exact (lands.sound.known entry read).current (expects_iff.mp expects)

/-- A revision of the datastore is an int64. -/
def Traffic.int64 (traffic : Traffic) : Bool := decide (traffic.store.revision < 2 ^ 63)

theorem Traffic.Lands.guaranteed
    (lands : Lands key before index (.write name ns change) attempt after)
    (bounded : before.int64 = true) (guaranteed : change.guaranteed = true) :
    before.store.entries key = attempt.read := by
  have ⟨entry, existing, read, injected, prepared⟩ := lands.sound.write
  obtain ⟨-, asked, obj, -, finished, isCommit⟩ :=
    ObjectWrite.prepare_guaranteed prepared guaranteed
  have past := (lands.sound.known entry read).remembered.past
  have revision : entry.modRevision < 2 ^ 64 := by
    have := of_decide_eq_true bounded
    omega
  rw [read]
  apply lands.conditional read
  rw [isCommit, persistOrFinalize_prevRevision, Api.sealUpdate_version finished, Api.versionOf,
    injectResourceVersion_version injected]
  exact parseU64Text_toString revision

/-- A guaranteed update as one step on the version it replaced: what the key holds then is what the
mutation made of that version, or nothing where that was the write that let the object go. A
precondition named that version. -/
def Landing.Atomic (key : String) (change : ObjectWrite) (landing : Landing) : Prop :=
  ∃ entry existing asked obj, landing.before = some entry ∧
    Storage.injectResourceVersion entry.object entry.modRevision = some existing ∧
    landing.attempt.api.askUpdate key (change.mutation landing.attempt.api landing.attempt.codec)
      existing = .ok asked ∧
    landing.attempt.api.sealUpdate key existing asked = .ok obj ∧
    landing.after.map (·.object) =
      (if (deletionTimestamp obj).isSome && !finalizersLeft obj then none
      else some (storedForm landing.attempt.api.rules.canonical (metricResource key) obj)) ∧
    ∀ version ∈ change.precondition landing.attempt.codec, version = toString entry.modRevision

/-- In every interleaving with other requests and with any other writer, a guaranteed update that
succeeds is one step on the version it replaces. -/
theorem no_lost_update (key : String) (store : ObjectStore) (traffic : Traffic)
    (reached : Transition.Reaches (Traffic.step key) (fun traffic _ => traffic.int64 = true)
      (Traffic.start key store) traffic) :
    ∀ landing ∈ traffic.landed, ∀ name ns change, landing.request = .write name ns change →
      change.guaranteed = true → landing.Atomic key change := by
  refine Traffic.landings reached ?_
  intro before index inTime request attempt after bounded lands name ns change isWrite guaranteed
  obtain rfl : request = .write name ns change := isWrite
  have ⟨entry, existing, read, injected, prepared⟩ := lands.sound.write
  have ⟨named, asked, obj, asks, finished, isCommit⟩ :=
    ObjectWrite.prepare_guaranteed prepared guaranteed
  have current : before.store.entries key = some entry :=
    (lands.guaranteed bounded guaranteed).trans read
  refine ⟨entry, existing, asked, obj, current, injected, asks, finished, ?_, ?_⟩
  · have landed := lands.landed
    rw [isCommit] at landed
    have present : (before.store.entries key).isSome = true := by rw [current]; rfl
    simp only [persistOrFinalize_entries landed present, apply_ite (Option.map _), Option.map_none,
      Option.map_some]
  · intro version given
    rw [named version given, Api.versionOf, injectResourceVersion_version injected]
    rfl

/-- A guaranteed update that sets one key of the data. -/
def setData (field value : String) : KeyRequest :=
  .write "settings" (some "default") (.update none fun existing =>
    orPanic (existing.assignIn "data" field (.string value)))

/-- Two updates that read the same version. The one that loses its swap goes on from what the other
has stored. -/
def twoUpdates : List TrafficAction :=
  [.arrive (setData "mode" "slow"), .arrive (setData "level" "high"),
    .prepare 0 settingsApi settingsCodec, .prepare 1 settingsApi settingsCodec,
    .commit 1 true, .commit 0 true, .prepare 0 settingsApi settingsCodec, .commit 0 true]

theorem no_lost_update_retried : ∃ traffic landing, Transition.Reaches (Traffic.step settingsKey)
      (fun traffic _ => traffic.int64 = true) (Traffic.start settingsKey (settingsStore []))
        traffic ∧
    landing ∈ traffic.landed ∧
    landing.after.map (·.object["data"]) =
      some (.object [("level", .string "high"), ("mode", .string "slow")]) ∧
    landing.Atomic settingsKey (.update none fun existing =>
      orPanic (existing.assignIn "data" "mode" (.string "slow"))) := by
  simp only [exists_and_left]
  refine Transition.exists_of_run twoUpdates rfl fun reached => ⟨_, .tail _ (.head _), rfl, ?_⟩
  exact no_lost_update settingsKey _ _ reached _ (.tail _ (.head _)) _ _ _ rfl rfl

end Rustkube
