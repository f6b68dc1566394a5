import Rustkube.Quota
import Rustkube.Traffic

namespace Rustkube.Quota

open List ObjectStore Option Json

/-- A create that is to be admitted. -/
structure Create where
  resource : String
  obj : Value

/-- A quota to charge. -/
structure Item where
  name : String
  delta : Usage

def Item.key (ns : String) (item : Item) : String := namespacedKey "resourcequotas" ns item.name

/-- A charge that is about to be written, with the version it was made from. -/
structure Prepared where
  read : Entry
  object : Value

/-- One call of `charge`. `tries` are the attempts left to it, the one under way among them. -/
structure Charge where
  item : Item
  tries : Nat
  prepared : Option Prepared

/-- Where `admit` is: before it lists the quotas; charging one, with those it has charged and those
to come; giving back, with those still to give back; or returned. -/
inductive Phase where
  | listing
  | charging (done : List Item) (charge : Charge) (rest : List Item)
  | rolling (error : ApiError) (charge : Charge) (rest : List Item)
  | finished (result : Except Failure Unit)

/-- A call of `admit`. `present` are the quotas that the namespace had when it listed them. -/
structure Request where
  create : Create
  phase : Phase
  present : Option (List (String × Value))

/-- A charge that was written, by the request of that number. -/
structure Landed where
  request : Nat
  create : Create
  direction : Direction
  item : Item
  before : Value
  after : Value

structure State where
  store : ObjectStore
  requests : List Request
  landed : List Landed

/-- How the datastore answers a conditional write: as it ends; with an error, and not applied; or
with an error although it may be applied. -/
inductive Answer where
  | served
  | failed (error : StoreError)
  | lost (error : StoreError)

inductive Action where
  | arrive (create : Create)
  | list (index : Nat) (fails : Bool)
  | read (index : Nat) (fault : Option StoreError) (now : String)
  | write (index : Nat) (answer : Answer)
  | foreign (key : String) (write : ForeignWrite)

namespace Create

variable (quantities : Quantities) (create : Create)

def forbidden (why : String) : ApiError :=
  ⟨.forbidden, create.resource ++ " \"" ++ nameOf create.obj ++ "\" is forbidden: " ++ why, none,
    none⟩

/-- The error of a charge as `admit` returns it. -/
def refused (error : ApiError) : ApiError :=
  if error.reason.status = 403 then create.forbidden error.message else error

def usage : Usage := Quota.usage quantities create.resource (groupOf create.resource) create.obj

def covered (quota : Value) : Bool :=
  covers quantities quota create.resource (groupOf create.resource) create.obj

def delta (quota : Value) : Usage := tracked quota (create.usage quantities)

/-- A pod has to set the compute resources that a quota tracks, also where it charges nothing. -/
def tracksCompute (quota : Value) : Bool :=
  create.resource = "pods" ∧
    ((specHard quota).getD []).any fun field => COMPUTE.contains field.1

/-- The quotas to charge. Every one of them is checked before any is charged. -/
def plan : List Value → Except ApiError (List Item)
  | [] => .ok []
  | quota :: rest =>
    if !create.covered quantities quota ||
      (create.delta quantities quota).isEmpty && !create.tracksCompute quota then plan rest
    else
      match refusal quantities quota create.resource create.obj (create.delta quantities quota) with
      | some why => .error (create.forbidden why)
      | none => (plan rest).map fun items =>
        ⟨nameOf quota, create.delta quantities quota⟩ :: items

end Create

def Charge.start (item : Item) : Charge := ⟨item, 10, none⟩

namespace Phase

def charge (done : List Item) : List Item → Phase
  | [] => .finished (.ok ())
  | item :: rest => .charging done (.start item) rest

def rollBack (error : ApiError) : List Item → Phase
  | [] => .finished (.error (.api error))
  | item :: rest => .rolling error (.start item) rest

/-- The call of `charge` that is under way. -/
def current : Phase → Option (Direction × Charge)
  | .charging _ charge _ => some (.take, charge)
  | .rolling _ charge _ => some (.giveBack, charge)
  | _ => none

def withCharge (charge : Charge) : Phase → Phase
  | .charging done _ rest => .charging done charge rest
  | .rolling error _ rest => .rolling error charge rest
  | phase => phase

/-- The call of `charge` has returned. An error while giving back is passed over. -/
def settle (create : Create) (result : Except ApiError Unit) : Phase → Phase
  | .charging done call rest =>
    match result with
    | .ok () => charge (done ++ [call.item]) rest
    | .error error => rollBack (create.refused error) done
  | .rolling error _ rest => rollBack error rest
  | phase => phase

def keptLosing : ApiError := ⟨.conflict, "quota charge kept losing its race; try again", none, none⟩

/-- The datastore has answered the write of a charge. -/
def answered (create : Create) (call : Charge) (result : Except StoreError Unit) (phase : Phase) :
    Phase :=
  match result with
  | .ok () => phase.settle create (.ok ())
  | .error .conflict =>
    if call.tries ≤ 1 then phase.settle create (.error keptLosing)
    else phase.withCharge ⟨call.item, call.tries - 1, none⟩
  | .error error => phase.settle create (.error (.ofStore error))

end Phase

section

variable (quantities : Quantities) (ns : String)

/-- An attempt of `charge` up to its write, where `fault` is an error of the read. A quota without
`spec.hard` is charged nothing. -/
def Charge.attempt (create : Create) (direction : Direction) (item : Item)
    (fault : Option StoreError) (now : String) (store : ObjectStore) :
    Except Failure (Option Prepared) :=
  match fault, store.entries (item.key ns) with
  | some error, _ => .error (.api (.ofStore error))
  | none, none => .error (.api (notFoundAt (item.key ns)))
  | none, some entry =>
    match if direction = .take then
        refusal quantities entry.object create.resource create.obj item.delta else none with
    | some why => refuse .forbidden why
    | none =>
      match specHard entry.object with
      | none => pure none
      | some hard => do
        let object ← orPanic (charged quantities direction item.delta now hard entry.object)
        pure (some ⟨entry, object⟩)

/-- What an attempt comes to. -/
def Phase.attempted (create : Create) (call : Charge) (phase : Phase) :
    Except Failure (Option Prepared) → Phase
  | .ok (some prepared) => phase.withCharge { call with prepared := some prepared }
  | .ok none => phase.settle create (.ok ())
  | .error (.api error) => phase.settle create (.error error)
  | .error .panic => .finished (.error .panic)

/- `names` are the quotas that the namespace can have, in the order of their keys. -/
variable (names : List String)

def presentQuotas (store : ObjectStore) : List (String × Value) :=
  names.filterMap fun name =>
    (store.entries (namespacedKey "resourcequotas" ns name)).map fun entry => (name, entry.object)

/-- `admit` lists one page. Where the list fails it returns `Ok`. -/
def Request.list (request : Request) (store : ObjectStore) (fails : Bool) : Request :=
  let quotas := presentQuotas ns names store
  let phase :=
    if fails then .finished (.ok ())
    else
      match request.create.plan quantities ((quotas.take 500).map Prod.snd) with
      | .ok items => .charge [] items
      | .error error => .finished (.error (.api error))
  ⟨request.create, phase, some quotas⟩

def Request.read (request : Request) (direction : Direction) (call : Charge) (store : ObjectStore)
    (fault : Option StoreError) (now : String) : Request :=
  let outcome := Charge.attempt quantities ns request.create direction call.item fault now store
  { request with phase := request.phase.attempted request.create call outcome }

def Request.answered (request : Request) (call : Charge) (result : Except StoreError Unit) :
    Request :=
  { request with phase := request.phase.answered request.create call result }

namespace State

def set (state : State) (index : Nat) (request : Request) : State :=
  { state with requests := state.requests.set index request }

/-- The write of a charge, and what `charge` is told of it. -/
def write (state : State) (index : Nat) (request : Request) (direction : Direction) (call : Charge)
    (prepared : Prepared) (answer : Answer) : State :=
  let lands (store : ObjectStore) (result : Except StoreError Unit) : State :=
    ⟨store, state.requests.set index (request.answered call result), state.landed ++ [
      ⟨index, request.create, direction, call.item,
        ((state.store.entries (call.item.key ns)).map (·.object)).getD .null, prepared.object⟩]⟩
  match answer, state.store.put (call.item.key ns) prepared.object
    (some prepared.read.modRevision) with
  | .failed error, _ => state.set index (request.answered call (.error error))
  | .served, .ok store => lands store (.ok ())
  | .lost error, .ok store => lands store (.error error)
  | .served, .error error => state.set index (request.answered call (.error error))
  | .lost error, .error _ => state.set index (request.answered call (.error error))

def step (state : State) : Action → Option State
  | .arrive create => some { state with requests := state.requests ++ [⟨create, .listing, none⟩] }
  | .list index fails => do
    let request ← state.requests[index]?
    match request.phase with
    | .listing => some (state.set index (request.list quantities ns names state.store fails))
    | _ => none
  | .read index fault now => do
    let request ← state.requests[index]?
    let (direction, call) ← request.phase.current
    match call.prepared with
    | none =>
      some (state.set index (request.read quantities ns direction call state.store fault now))
    | some _ => none
  | .write index answer => do
    let request ← state.requests[index]?
    let (direction, call) ← request.phase.current
    let prepared ← call.prepared
    some (state.write ns index request direction call prepared answer)
  | .foreign key write =>
    match write.land state.store key with
    | .ok store => some { state with store }
    | .error _ => none

/-- What a step is: it moves one request on, without the store or with a write of it, or it is
another writer's. -/
inductive Moved (state : State) : Action → State → Prop
  | arrive {create : Create} : Moved state (.arrive create)
      { state with requests := state.requests ++ [⟨create, .listing, none⟩] }
  | list {index : Nat} {fails : Bool} {request : Request}
      (found : state.requests[index]? = some request) (isListing : request.phase = .listing) :
      Moved state (.list index fails)
        (state.set index (request.list quantities ns names state.store fails))
  | read {index : Nat} {fault : Option StoreError} {now : String} {request : Request}
      {direction : Direction} {call : Charge} (found : state.requests[index]? = some request)
      (current : request.phase.current = some (direction, call)) :
      Moved state (.read index fault now)
        (state.set index (request.read quantities ns direction call state.store fault now))
  | refused {index : Nat} {answer : Answer} {request : Request} {direction : Direction}
      {call : Charge} {prepared : Prepared} {error : StoreError}
      (found : state.requests[index]? = some request)
      (current : request.phase.current = some (direction, call))
      (isPrepared : call.prepared = some prepared)
      (told : answer = .served → error = .conflict ∧
        state.store.modRevision (call.item.key ns) ≠ prepared.read.modRevision) :
      Moved state (.write index answer) (state.set index (request.answered call (.error error)))
  | landed {index : Nat} {answer : Answer} {request : Request} {direction : Direction}
      {call : Charge} {prepared : Prepared} {store : ObjectStore} {result : Except StoreError Unit}
      (found : state.requests[index]? = some request)
      (current : request.phase.current = some (direction, call))
      (isPrepared : call.prepared = some prepared)
      (put : state.store.put (call.item.key ns) prepared.object (some prepared.read.modRevision) =
        .ok store)
      (told : answer = .served ∧ result = .ok () ∨
        ∃ error, answer = .lost error ∧ result = .error error) :
      Moved state (.write index answer)
        ⟨store, state.requests.set index (request.answered call result), state.landed ++ [
          ⟨index, request.create, direction, call.item,
            ((state.store.entries (call.item.key ns)).map (·.object)).getD .null, prepared.object⟩]⟩
  | foreign {key : String} {write : ForeignWrite} {store : ObjectStore}
      (landed : write.land state.store key = .ok store) :
      Moved state (.foreign key write) { state with store }

end State

end

variable {quantities : Quantities} {ns : String} {names : List String} {state after : State}

variable {prepared : Prepared} {request : Request} {direction : Direction} {call : Charge}
  {index : Nat} {action : Action}

theorem State.write_moved {answer : Answer} (found : state.requests[index]? = some request)
    (current : request.phase.current = some (direction, call))
    (isPrepared : call.prepared = some prepared) :
    Moved quantities ns names state (.write index answer)
      (state.write ns index request direction call prepared answer) := by
  unfold write
  cases put : state.store.put (call.item.key ns) prepared.object
    (some prepared.read.modRevision) with
  | ok store =>
    cases answer with
    | served => exact .landed found current isPrepared put (.inl ⟨rfl, rfl⟩)
    | failed error => exact .refused found current isPrepared (by simp)
    | lost error => exact .landed found current isPrepared put (.inr ⟨error, rfl, rfl⟩)
  | error failure =>
    have conflict : failure = .conflict ∧
        state.store.modRevision (call.item.key ns) ≠ prepared.read.modRevision := by
      unfold ObjectStore.put at put
      split_ifs at put with held
      exact ⟨(Except.error.inj put).symm, fun same => held (expects_iff.mpr same)⟩
    cases answer with
    | served => exact .refused found current isPrepared fun _ => conflict
    | failed | lost => exact .refused found current isPrepared (by simp)

theorem State.step_moved (taken : state.step quantities ns names action = some after) :
    Moved quantities ns names state action after := by
  cases action with
  | arrive create =>
    cases taken
    exact .arrive
  | list index fails =>
    have ⟨request, found, taken⟩ := bind_eq_some_iff.mp taken
    split at taken
    · rename_i isListing
      cases taken
      exact .list found isListing
    · cases taken
  | read index fault now =>
    have ⟨request, found, taken⟩ := bind_eq_some_iff.mp taken
    have ⟨⟨direction, call⟩, current, taken⟩ := bind_eq_some_iff.mp taken
    dsimp only at taken
    split at taken
    · cases taken
      exact .read found current
    · cases taken
  | write index answer =>
    have ⟨request, found, taken⟩ := bind_eq_some_iff.mp taken
    have ⟨⟨direction, call⟩, current, taken⟩ := bind_eq_some_iff.mp taken
    have ⟨prepared, isPrepared, taken⟩ := bind_eq_some_iff.mp taken
    cases taken
    exact write_moved found current isPrepared
  | foreign key write =>
    unfold step at taken
    dsimp only at taken
    split at taken
    · rename_i store landed
      cases taken
      exact .foreign landed
    · cases taken

/-- What a charge makes of the version of a quota that it has accepted. -/
structure Made (quantities : Quantities) (create : Create) (direction : Direction) (item : Item)
    (before after : Value) : Prop where
  accepted : direction = .take →
    refusal quantities before create.resource create.obj item.delta = none
  charged : ∃ hard, specHard before = some hard ∧
    IsCharged quantities direction item.delta hard before after

variable {store later : ObjectStore} {phase : Phase} {fault : Option StoreError} {create : Create}
  {now : String} {item : Item}

theorem Charge.attempt_ok
    (attempted : attempt quantities ns create direction item fault now store = .ok
      (some prepared)) :
    store.entries (item.key ns) = some prepared.read ∧
      Made quantities create direction item prepared.read.object prepared.object := by
  unfold attempt at attempted
  split at attempted
  · cases attempted
  · cases attempted
  · rename_i entry found
    split at attempted
    · cases attempted
    · rename_i accepted
      split at attempted
      · cases attempted
      · rename_i hard isHard
        have ⟨object, made, attempted⟩ := bind_eq_ok.mp attempted
        cases pure_eq_ok.mp attempted
        refine ⟨found, fun isTake => ?_, hard, isHard, charged_ok (orPanic_eq_ok.mp made)⟩
        rwa [if_pos isTake] at accepted

/-- A call of `charge` that has nothing prepared. -/
def Phase.Fresh (phase : Phase) : Prop :=
  ∀ direction call, phase.current = some (direction, call) → call.prepared = none

theorem Phase.Fresh.of_none (idle : phase.current = none) : phase.Fresh := by
  simp [Fresh, idle]

theorem Phase.charge_fresh (done todo : List Item) : (charge done todo).Fresh := by
  cases todo with
  | nil => exact .of_none rfl
  | cons item rest => simp [Fresh, charge, current, Charge.start]

theorem Phase.rollBack_fresh (error : ApiError) (todo : List Item) :
    (rollBack error todo).Fresh := by
  cases todo with
  | nil => exact .of_none rfl
  | cons item rest => simp [Fresh, rollBack, current, Charge.start]

theorem Phase.settle_fresh (create : Create) (result : Except ApiError Unit) (phase : Phase) :
    (phase.settle create result).Fresh := by
  cases phase with
  | charging done call rest =>
    cases result with
    | ok => exact charge_fresh _ _
    | error error => exact rollBack_fresh _ _
  | rolling error call rest => exact rollBack_fresh _ _
  | listing | finished => exact .of_none rfl

theorem Phase.current_withCharge {old : Charge}
    (current : phase.current = some (direction, old)) (call : Charge) :
    (phase.withCharge call).current = some (direction, call) := by
  cases phase with
  | charging | rolling =>
    cases current
    rfl
  | listing | finished => cases current

theorem Phase.answered_fresh (current : phase.current = some (direction, call)) (create : Create)
    (result : Except StoreError Unit) : (phase.answered create call result).Fresh := by
  unfold answered
  split
  · exact settle_fresh _ _ _
  · split_ifs
    · exact settle_fresh _ _ _
    · intro other charge now
      rw [current_withCharge current] at now
      cases now
      rfl
  · exact settle_fresh _ _ _

/-- What is prepared was made from a version that is not overwritten in secret. -/
structure Prepared.Sound (quantities : Quantities) (ns : String) (store : ObjectStore)
    (create : Create) (direction : Direction) (item : Item) (prepared : Prepared) : Prop where
  positive : 0 < prepared.read.modRevision
  remembered : store.Remembers (item.key ns) prepared.read
  made : Made quantities create direction item prepared.read.object prepared.object

def Request.Sound (quantities : Quantities) (ns : String) (store : ObjectStore)
    (request : Request) : Prop :=
  ∀ direction call prepared, request.phase.current = some (direction, call) →
    call.prepared = some prepared →
    prepared.Sound quantities ns store request.create direction call.item

theorem Request.Sound.of_fresh (fresh : request.phase.Fresh) :
    request.Sound quantities ns store := by
  intro direction call prepared current isPrepared
  rw [fresh direction call current] at isPrepared
  cases isPrepared

theorem Request.Sound.carry (sound : request.Sound quantities ns store)
    (keeps : ∀ key entry, store.Remembers key entry → later.Remembers key entry) :
    request.Sound quantities ns later := by
  intro direction call prepared current isPrepared
  have before := sound direction call prepared current isPrepared
  exact ⟨before.positive, keeps _ _ before.remembered, before.made⟩

theorem Request.list_sound {fails : Bool} :
    (request.list quantities ns names store fails).Sound quantities ns store := by
  apply Sound.of_fresh
  unfold list
  dsimp only
  split_ifs
  · exact .of_none rfl
  · split
    · exact Phase.charge_fresh _ _
    · exact .of_none rfl

theorem Request.read_sound (current : request.phase.current = some (direction, call)) :
    (request.read quantities ns direction call store fault now).Sound quantities ns store := by
  unfold read
  cases attempted :
    Charge.attempt quantities ns request.create direction call.item fault now store with
  | ok outcome =>
    cases outcome with
    | some prepared =>
      intro other charge found now isPrepared
      dsimp only [Phase.attempted] at now
      rw [Phase.current_withCharge current] at now
      cases now
      cases isPrepared
      have ⟨read, made⟩ := Charge.attempt_ok attempted
      exact ⟨(store.stamped _ _ read).1, .of_read read, made⟩
    | none =>
      apply Sound.of_fresh
      dsimp only [Phase.attempted]
      exact Phase.settle_fresh _ _ _
  | error failure =>
    apply Sound.of_fresh
    cases failure with
    | api error =>
      dsimp only [Phase.attempted]
      exact Phase.settle_fresh _ _ _
    | panic => exact .of_none rfl

structure State.Sound (quantities : Quantities) (ns : String) (state : State) : Prop where
  requests : ∀ request ∈ state.requests, request.Sound quantities ns state.store
  landed : ∀ landed ∈ state.landed,
    Made quantities landed.create landed.direction landed.item landed.before landed.after

theorem State.Sound.ready (sound : state.Sound quantities ns)
    (found : state.requests[index]? = some request)
    (current : request.phase.current = some (direction, call))
    (isPrepared : call.prepared = some prepared) :
    prepared.Sound quantities ns state.store request.create direction call.item :=
  sound.requests request (mem_of_getElem? found) direction call prepared current isPrepared

theorem State.Sound.set (sound : state.Sound quantities ns)
    (isSound : request.Sound quantities ns state.store) :
    (state.set index request).Sound quantities ns :=
  ⟨forall_mem_set sound.requests isSound, sound.landed⟩

theorem Prepared.Sound.current (sound : prepared.Sound quantities ns store create direction item)
    (put : store.put (item.key ns) prepared.object (some prepared.read.modRevision) = .ok later) :
    store.entries (item.key ns) = some prepared.read := by
  have ⟨entry, found, same⟩ := expects_stamped sound.positive (put_ok put).1
  rw [found, (sound.remembered.current _ entry found same).2]

theorem State.step_sound (sound : state.Sound quantities ns)
    (moved : Moved quantities ns names state action after) : after.Sound quantities ns := by
  cases moved with
  | arrive =>
    exact ⟨forall_mem_concat sound.requests (.of_fresh (.of_none rfl)), sound.landed⟩
  | list found isListing => exact sound.set Request.list_sound
  | read found current => exact sound.set (Request.read_sound current)
  | refused found current isPrepared told =>
    exact sound.set (.of_fresh (Phase.answered_fresh current _ _))
  | @landed index answer request direction call prepared store result found current isPrepared put
      told =>
    have ready := sound.ready found current isPrepared
    constructor
    · refine forall_mem_set (fun other old => ?_) (.of_fresh (Phase.answered_fresh current _ _))
      exact (sound.requests other old).carry fun _ _ remembered => remembered.put put
    · exact forall_mem_concat sound.landed (ready.current put ▸ ready.made)
  | foreign landed =>
    exact ⟨fun request member => (sound.requests request member).carry fun _ _ =>
      ForeignWrite.land_remembers landed, sound.landed⟩

/-- The first state: no create has arrived. -/
def State.start (store : ObjectStore) : State := ⟨store, [], []⟩

theorem State.start_sound (store : ObjectStore) : (start store).Sound quantities ns :=
  ⟨by simp [start], by simp [start]⟩

end Rustkube.Quota
