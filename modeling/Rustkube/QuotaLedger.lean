import Mathlib.Algebra.BigOperators.Group.Finset.Piecewise
import Mathlib.Algebra.Order.BigOperators.Group.Finset
import Rustkube.QuotaEnforcement

namespace Rustkube.Quota

open List ObjectStore Option Request State Json

section

variable (quantities : Quantities) (ns name key : String)

/-- What is used of a resource in a quota, as it is read back. -/
def amountOf (quota : Value) : Int := (usedOf quantities quota).amount key

def Landed.change (landed : Landed) : Int :=
  amountOf quantities key landed.after - amountOf quantities key landed.before

/-- What the writes of one request have come to, for one resource of one quota. -/
def contribution (landed : List Landed) (index : Nat) : Int :=
  (landed.map fun made =>
    if made.request = index ∧ made.item.name = name then made.change quantities key else 0).sum

/-- The quota is there, and tracks the resource. -/
def Tracks (store : ObjectStore) : Prop :=
  ∃ entry hard, store.entries (namespacedKey "resourcequotas" ns name) = some entry ∧
    specHard entry.object = some hard ∧ (hard.get? key).isSome = true

/-- The amounts that a charge writes are read back as they are. -/
def Prepared.exact (direction : Direction) (item : Item) (prepared : Prepared) : Bool :=
  ((specHard prepared.read.object).getD []).all fun field =>
    let total := (chargedUsage quantities direction item.delta prepared.read.object).amount field.1
    parse quantities field.1 (.string (format field.1 total)) == total

/-- Only creates write; amounts are read back as written; a charge whose write is applied is told
so; and a roll-back is served, and wins one of its attempts. -/
def State.accounted (state : State) : Action → Bool
  | .read index fault _ =>
    (state.requests[index]?).all fun request => request.phase.current.all fun (direction, _) =>
      direction == .take || fault.isNone
  | .write index answer =>
    (state.requests[index]?).all fun request => request.phase.current.all fun (direction, call) =>
      call.prepared.all fun prepared =>
        prepared.exact quantities direction call.item &&
          match direction, answer with
          | .take, .lost _ => false
          | .take, _ => true
          | .giveBack, .served => 1 < call.tries ||
            state.store.modRevision (call.item.key ns) == prepared.read.modRevision
          | .giveBack, _ => false
  | .foreign _ _ => false
  | _ => true

end

section

variable {quantities : Quantities} {ns name key : String} {names : List String}
  {start : ObjectStore} {state after : State}

/-- What an item takes of the resource. -/
def share (name key : String) (item : Item) : Int :=
  if item.name = name then (item.delta.amount key : Int) else 0

def outstanding (name key : String) (items : List Item) : Int := (items.map (share name key)).sum

def Direction.signed : Direction → Int → Int
  | .take, amount => amount
  | .giveBack, amount => -amount

theorem share_nonneg (name key : String) (item : Item) : 0 ≤ share name key item := by
  unfold share
  split_ifs
  · exact Int.natCast_nonneg _
  · exact Int.le_refl 0

theorem outstanding_nonneg (name key : String) (items : List Item) :
    0 ≤ outstanding name key items := by
  apply sum_nonneg
  intro amount member
  obtain ⟨item, -, rfl⟩ := mem_map.mp member
  exact share_nonneg name key item

/-- A request has contributed what it has charged and not given back. -/
def Phase.Balanced (name key : String) (amount : Int) : Phase → Prop
  | .listing => amount = 0
  | .charging done _ _ => amount = outstanding name key done
  | .rolling _ call rest => amount = outstanding name key (call.item :: rest)
  | .finished (.error (.api _)) => amount = 0
  | .finished _ => 0 ≤ amount

namespace Phase

variable {phase : Phase} {amount : Int} {direction : Direction} {call : Charge} {create : Create}

theorem Balanced.nonneg (balanced : phase.Balanced name key amount) : 0 ≤ amount := by
  cases phase with
  | listing => exact balanced.ge
  | charging done call rest => exact balanced ▸ outstanding_nonneg name key done
  | rolling error call rest => exact balanced ▸ outstanding_nonneg name key _
  | finished result =>
    cases result with
    | ok => exact balanced
    | error failure =>
      cases failure with
      | api error => exact balanced.ge
      | panic => exact balanced

theorem charge_balanced (done todo : List Item) :
    (charge done todo).Balanced name key (outstanding name key done) := by
  cases todo with
  | nil => exact outstanding_nonneg name key done
  | cons item rest => rfl

theorem rollBack_balanced (error : ApiError) (todo : List Item) :
    (rollBack error todo).Balanced name key (outstanding name key todo) := by
  cases todo with
  | nil | cons => rfl

variable (balanced : phase.Balanced name key amount)

include balanced

variable (current : phase.current = some (direction, call))

include current

theorem settle_ok_balanced (create : Create) :
    (phase.settle create (.ok ())).Balanced name key
      (amount + direction.signed (share name key call.item)) := by
  cases phase with
  | charging done held rest =>
    cases current
    have charged :
        outstanding name key (done ++ [call.item]) = amount + share name key call.item := by
      rw [outstanding, map_append, sum_append, map_singleton, sum_singleton, balanced]
      rfl
    rw [Direction.signed, ← charged]
    exact charge_balanced _ _
  | rolling error held rest =>
    cases current
    have left : outstanding name key rest = amount + -share name key call.item := by
      rw [balanced, outstanding, outstanding, map_cons, sum_cons]
      omega
    rw [Direction.signed, ← left]
    exact rollBack_balanced _ _
  | listing | finished => cases current

theorem settle_error_balanced (error : ApiError)
    (apart : direction = .giveBack → share name key call.item = 0) :
    (phase.settle create (.error error)).Balanced name key amount := by
  cases phase with
  | charging done held rest =>
    cases current
    rw [show amount = outstanding name key done from balanced]
    exact rollBack_balanced _ _
  | rolling held failed rest =>
    cases current
    have left : amount = outstanding name key rest := by
      rw [show amount = outstanding name key (call.item :: rest) from balanced, outstanding,
        map_cons, sum_cons, apart rfl, Int.zero_add]
      rfl
    rw [left]
    exact rollBack_balanced _ _
  | listing | finished => cases current

theorem withCharge_balanced {next : Charge} (same : next.item = call.item) :
    (phase.withCharge next).Balanced name key amount := by
  cases phase with
  | charging done held rest => exact balanced
  | rolling error held rest =>
    cases current
    change amount = outstanding name key (next.item :: rest)
    rw [same]
    exact balanced
  | listing | finished => cases current

end Phase

/-- What a written charge does to a resource that the quota tracks. -/
theorem Landed.change_eq {landed : Landed} {hard : Json.Fields}
    (charged : IsCharged quantities landed.direction landed.item.delta hard landed.before
      landed.after)
    (tracked : (hard.get? key).isSome = true)
    (exactly : parse quantities key (.string (format key ((chargedUsage quantities landed.direction
      landed.item.delta landed.before).amount key))) =
        (chargedUsage quantities landed.direction landed.item.delta landed.before).amount key)
    (enough : landed.direction = .giveBack →
      (landed.item.delta.amount key : Int) ≤ amountOf quantities key landed.before) :
    landed.change quantities key = landed.direction.signed (landed.item.delta.amount key) := by
  have ⟨limit, has⟩ := isSome_iff_exists.mp tracked
  have stored : (usedOf quantities landed.after).amount key =
      (chargedUsage quantities landed.direction landed.item.delta landed.before).amount key := by
    rw [usedOf, Tally.amount, parseAll_get?, charged.used, resourceList_get?, has]
    exact exactly
  rw [change, amountOf, amountOf, stored, chargedUsage_amount]
  unfold amountOf at enough
  cases isDirection : landed.direction with
  | take =>
    simp only [Direction.apply, Direction.signed]
    omega
  | giveBack =>
    have room := enough isDirection
    simp only [Direction.apply, Direction.signed]
    omega

def usedIn (quantities : Quantities) (ns name key : String) (store : ObjectStore) : Int :=
  ((store.entries (namespacedKey "resourcequotas" ns name)).map fun entry =>
    amountOf quantities key entry.object).getD 0

theorem usedIn_nonneg (store : ObjectStore) : 0 ≤ usedIn quantities ns name key store := by
  unfold usedIn
  cases store.entries (namespacedKey "resourcequotas" ns name) with
  | none => exact Int.le_refl 0
  | some entry => exact Int.natCast_nonneg _

/-- The resource is used as at the start and by what the requests have contributed. -/
structure Ledger (quantities : Quantities) (ns name key : String) (start : ObjectStore)
    (state : State) : Prop where
  tracks : Tracks ns name key state.store
  total : usedIn quantities ns name key state.store = usedIn quantities ns name key start +
    ∑ index ∈ Finset.range state.requests.length,
      contribution quantities name key state.landed index
  balanced : ∀ (index : Nat) (request : Request), state.requests[index]? = some request →
    request.phase.Balanced name key (contribution quantities name key state.landed index)
  fresh : ∀ index, state.requests.length ≤ index →
    contribution quantities name key state.landed index = 0

theorem Ledger.contribution_le (ledger : Ledger quantities ns name key start state) {index : Nat}
    {request : Request} (found : state.requests[index]? = some request) :
    contribution quantities name key state.landed index ≤ usedIn quantities ns name key
      state.store := by
  have others : ∀ number ∈ Finset.range state.requests.length,
      0 ≤ contribution quantities name key state.landed number := by
    intro number inRange
    have within := Finset.mem_range.mp inRange
    exact (ledger.balanced number _ (getElem?_eq_getElem within)).nonneg
  have inRange : index ∈ Finset.range state.requests.length :=
    Finset.mem_range.mpr (List.getElem?_eq_some_iff.mp found).1
  have single := Finset.single_le_sum others inRange
  have initial : 0 ≤ usedIn quantities ns name key start := usedIn_nonneg start
  rw [ledger.total]
  omega

section

variable {index : Nat} {request next : Request} {direction : Direction} {call : Charge}

variable {item : Item}

theorem share_of_ne (other : item.name ≠ name) : share name key item = 0 := if_neg other

variable {store : ObjectStore} {create : Create} {now : String}

theorem Tracks.other (tracks : Tracks ns name key store)
    (untracked : ∀ entry, store.entries (item.key ns) = some entry → specHard entry.object = none) :
    share name key item = 0 := by
  refine share_of_ne fun same => ?_
  obtain ⟨entry, hard, stored, isHard, -⟩ := tracks
  rw [untracked entry (by rw [Item.key, same]; exact stored)] at isHard
  cases isHard

theorem Charge.giveBack_error {error : ApiError}
    (attempted : attempt quantities ns create .giveBack item none now store =
      .error (.api error)) : store.entries (item.key ns) = none := by
  cases stored : store.entries (item.key ns) with
  | none => rfl
  | some entry =>
    unfold attempt at attempted
    rw [stored] at attempted
    dsimp only at attempted
    rw [if_neg (by decide)] at attempted
    dsimp only at attempted
    split at attempted
    · cases attempted
    · rename_i hard isHard
      cases made : charged quantities .giveBack item.delta now hard entry.object with
      | some | none =>
        rw [made] at attempted
        cases attempted

variable {amount : Int} {prepared : Prepared} {phase : Phase}

theorem Request.read_balanced {fault : Option StoreError}
    (tracks : Tracks ns name key store) (balanced : request.phase.Balanced name key amount)
    (current : request.phase.current = some (direction, call))
    (served : direction = .giveBack → fault = none) :
    (request.read quantities ns direction call store fault now).phase.Balanced name key amount := by
  unfold read
  cases attempted :
    Charge.attempt quantities ns request.create direction call.item fault now store with
  | ok outcome =>
    cases outcome with
    | some prepared => exact Phase.withCharge_balanced balanced current rfl
    | none =>
      have nothing : share name key call.item = 0 := by
        apply tracks.other
        intro entry stored
        have ⟨found, isFound, untracked⟩ := Charge.attempt_none attempted
        rw [stored] at isFound
        rwa [some.inj isFound]
      have settled := Phase.settle_ok_balanced balanced current request.create
      rw [nothing] at settled
      dsimp only [Phase.attempted]
      cases direction <;> simpa [Direction.signed] using settled
  | error failure =>
    cases failure with
    | api error =>
      refine Phase.settle_error_balanced balanced current error fun isGiveBack => ?_
      subst isGiveBack
      rw [served rfl] at attempted
      refine tracks.other fun entry stored => ?_
      rw [Charge.giveBack_error attempted] at stored
      cases stored
    | panic => exact balanced.nonneg

theorem Phase.answered_error_balanced (balanced : phase.Balanced name key amount)
    (current : phase.current = some (direction, call)) (error : StoreError)
    (lasts : direction = .giveBack → error = .conflict ∧ 1 < call.tries) :
    (phase.answered create call (.error error)).Balanced name key amount := by
  unfold answered
  split
  · rename_i isOk
    cases isOk
  · split_ifs with last
    · refine settle_error_balanced balanced current _ fun isGiveBack => ?_
      have := (lasts isGiveBack).2
      omega
    · exact withCharge_balanced balanced current rfl
  · rename_i failure other isError
    refine settle_error_balanced balanced current _ fun isGiveBack => ?_
    cases isError
    exact absurd (lasts isGiveBack).1 other

theorem Request.list_balanced {fails : Bool} :
    (request.list quantities ns names store fails).phase.Balanced name key 0 := by
  unfold list
  dsimp only
  split_ifs
  · exact Int.le_refl 0
  · split
    · exact Phase.charge_balanced _ _
    · rfl

theorem Phase.Balanced.share_le (balanced : phase.Balanced name key amount)
    (current : phase.current = some (.giveBack, call)) : share name key call.item ≤ amount := by
  cases phase with
  | rolling error held rest =>
    cases current
    have others := outstanding_nonneg name key rest
    rw [show amount = outstanding name key (call.item :: rest) from balanced, outstanding,
      map_cons, sum_cons]
    unfold outstanding at others
    omega
  | listing | charging | finished => cases current

theorem Tracks.of_read (tracks : Tracks ns name key store)
    {read : Entry} (held : store.entries (item.key ns) = some read) (same : item.name = name)
    {hard : Json.Fields} (isHard : specHard read.object = some hard) :
    (hard.get? key).isSome = true := by
  have ⟨entry, limits, stored, isLimits, has⟩ := tracks
  rw [Item.key, same, stored] at held
  rw [← some.inj held, isLimits] at isHard
  rwa [← some.inj isHard]

variable (ledger : Ledger quantities ns name key start state)

include ledger

theorem Ledger.set
    (balanced : next.phase.Balanced name key
      (contribution quantities name key state.landed index)) :
    Ledger quantities ns name key start (state.set index next) := by
  refine ⟨ledger.tracks, ?_, fun number request found => ?_, fun number above => ?_⟩
  · have length : (state.set index next).requests.length = state.requests.length := length_set
    rw [length]
    exact ledger.total
  · rcases getElem?_set_cases found with ⟨rfl, rfl⟩ | ⟨-, found⟩
    · exact balanced
    · exact ledger.balanced number request found
  · exact ledger.fresh number (by simpa [State.set] using above)

/-- A write is entered for the request that made it. -/
theorem Ledger.land (made : Landed) (found : state.requests[made.request]? = some request)
    (tracks : Tracks ns name key store)
    (isAmount : (if made.item.name = name then made.change quantities key else 0) = amount)
    (moves : usedIn quantities ns name key store =
      usedIn quantities ns name key state.store + amount) (balanced : next.phase.Balanced name key
      (contribution quantities name key state.landed made.request + amount)) :
    Ledger quantities ns name key start
      ⟨store, state.requests.set made.request next, state.landed ++ [made]⟩ := by
  have entered (number : Nat) : contribution quantities name key (state.landed ++ [made]) number =
      contribution quantities name key state.landed number +
        if number = made.request then amount else 0 := by
    rw [← isAmount]
    by_cases same : number = made.request
    · simp [contribution, same]
    · simp [contribution, same, Ne.symm same]
  have within : made.request ∈ Finset.range state.requests.length :=
    Finset.mem_range.mpr (List.getElem?_eq_some_iff.mp found).1
  refine ⟨tracks, ?_, fun number other here => ?_, fun number above => ?_⟩
  · rw [moves, ledger.total, length_set, Finset.sum_congr rfl fun number _ => entered number,
      Finset.sum_add_distrib, Finset.sum_ite_eq', if_pos within]
    omega
  · rw [entered]
    rcases getElem?_set_cases here with ⟨rfl, rfl⟩ | ⟨apart, here⟩
    · rw [if_pos rfl]
      exact balanced
    · rw [if_neg apart.symm, Int.add_zero]
      exact ledger.balanced number other here
  · rw [length_set] at above
    have apart : number ≠ made.request := by
      have := Finset.mem_range.mp within
      omega
    rw [entered, if_neg apart, Int.add_zero]
    exact ledger.fresh number above

theorem Ledger.arrive (create : Create) :
    Ledger quantities ns name key start
      { state with requests := state.requests ++ [⟨create, .listing, none⟩] } := by
  have last := ledger.fresh state.requests.length le_rfl
  refine ⟨ledger.tracks, ?_, fun number request found => ?_, fun number above => ?_⟩
  · rw [ledger.total, length_append, length_singleton, Finset.sum_range_succ, last, Int.add_zero]
  · rcases getElem?_concat_cases found with old | ⟨rfl, rfl⟩
    · exact ledger.balanced number request old
    · exact last
  · rw [length_append] at above
    exact ledger.fresh number (by omega)

/-- A write changes the resource by what its item takes, or gives it back. -/
theorem Ledger.change (found : state.requests[index]? = some request)
    (current : request.phase.current = some (direction, call))
    (made : Made quantities request.create direction call.item prepared.read.object prepared.object)
    (held : state.store.entries (call.item.key ns) = some prepared.read)
    (exactly : prepared.exact quantities direction call.item = true) :
    (if call.item.name = name then Landed.change quantities key
      ⟨index, request.create, direction, call.item, prepared.read.object, prepared.object⟩ else 0) =
      direction.signed (share name key call.item) := by
  by_cases same : call.item.name = name
  · have ⟨hard, isHard, charged⟩ := made.charged
    have tracked := ledger.tracks.of_read held same isHard
    have isShare : share name key call.item = call.item.delta.amount key := if_pos same
    rw [if_pos same, isShare]
    apply Landed.change_eq charged tracked
    · have ⟨limit, has⟩ := isSome_iff_exists.mp tracked
      rw [Prepared.exact, isHard] at exactly
      have reads := all_eq_true.mp exactly (key, limit) (Json.Fields.mem_of_get? has)
      exact beq_iff_eq.mp reads
    · intro isGiveBack
      obtain rfl : direction = .giveBack := isGiveBack
      have covered := (ledger.balanced index request found).share_le current
      have used := ledger.contribution_le found
      have now : usedIn quantities ns name key state.store =
          amountOf quantities key prepared.read.object := by
        rw [usedIn, ← same, ← Item.key, held]
        rfl
      dsimp only
      omega
  · rw [if_neg same, share_of_ne same]
    cases direction <;> rfl

theorem Ledger.moves (made : Landed) (isBefore : made.before = prepared.read.object)
    (isAfter : made.after = prepared.object)
    (held : state.store.entries (made.item.key ns) = some prepared.read)
    (put : state.store.put (made.item.key ns) prepared.object (some prepared.read.modRevision) =
      .ok store) (spec : prepared.object["spec"] = prepared.read.object["spec"]) :
    Tracks ns name key store ∧ usedIn quantities ns name key store =
      usedIn quantities ns name key state.store +
        if made.item.name = name then made.change quantities key else 0 := by
  have written := (put_ok put).2
  by_cases same : made.item.name = name
  · have isKey : namespacedKey "resourcequotas" ns name = made.item.key ns := by rw [Item.key, same]
    constructor
    · obtain ⟨entry, hard, stored, isHard, has⟩ := ledger.tracks
      rw [isKey, held] at stored
      refine ⟨_, hard, by rw [written, isKey, write_entries_self], ?_, has⟩
      rw [specHard, spec, some.inj stored]
      exact isHard
    · rw [if_pos same, usedIn, usedIn, isKey, held, written, write_entries_self,
        Landed.change, isBefore, isAfter]
      simp
  · have apart : namespacedKey "resourcequotas" ns name ≠ made.item.key ns := fun equal =>
      same ((String.append_right_inj _).mp equal).symm
    have kept : store.entries (namespacedKey "resourcequotas" ns name) =
        state.store.entries (namespacedKey "resourcequotas" ns name) := by
      rw [written, write_entries_of_ne _ _ _ apart]
    constructor
    · obtain ⟨entry, hard, stored, rest⟩ := ledger.tracks
      exact ⟨entry, hard, kept.trans stored, rest⟩
    · rw [if_neg same, usedIn, kept, Int.add_zero]
      rfl

theorem State.step_ledger {action : Action} (sound : state.Sound quantities ns)
    (allowed : state.accounted quantities ns action = true)
    (moved : Moved quantities ns names state action after) :
    Ledger quantities ns name key start after := by
  cases moved with
  | arrive => exact ledger.arrive _
  | @list index fails request found isListing =>
    apply ledger.set
    have none : contribution quantities name key state.landed index = 0 := by
      have balanced := ledger.balanced index request found
      rwa [isListing] at balanced
    rw [none]
    exact list_balanced
  | @read index fault now request direction call found current =>
    apply ledger.set
    apply read_balanced ledger.tracks (ledger.balanced index request found) current
    intro isGiveBack
    simpa [accounted, found, current, isGiveBack] using allowed
  | @refused index answer request direction call prepared error found current isPrepared told =>
    apply ledger.set
    apply Phase.answered_error_balanced (ledger.balanced index request found) current
    intro isGiveBack
    subst isGiveBack
    simp only [accounted, found, current, isPrepared, all_some, Bool.and_eq_true] at allowed
    cases answer with
    | served =>
      have ⟨isConflict, changed⟩ := told rfl
      simpa [isConflict, changed] using allowed.2
    | failed | lost => cases allowed.2
  | @landed index answer request direction call prepared store result found current isPrepared put
      told =>
    have ready := sound.ready found current isPrepared
    have held := ready.current put
    simp only [accounted, found, current, isPrepared, all_some, Bool.and_eq_true] at allowed
    have isOk : result = .ok () := by
      rcases told with ⟨-, isOk⟩ | ⟨failure, rfl, -⟩
      · exact isOk
      · cases direction <;> cases allowed.2
    subst isOk
    rw [held]
    have isChange := ledger.change found current ready.made held allowed.1
    obtain ⟨hard, -, charged⟩ := ready.made.charged
    have ⟨tracks, moves⟩ := ledger.moves ⟨index, request.create, direction, call.item,
      prepared.read.object, prepared.object⟩ rfl rfl held put charged.spec
    rw [isChange] at moves
    exact ledger.land ⟨index, request.create, direction, call.item, prepared.read.object,
      prepared.object⟩ found tracks isChange moves
      (Phase.settle_ok_balanced (ledger.balanced index request found) current request.create)
  | foreign landed => cases allowed

end

/-- A create that is refused has contributed nothing to what any quota tracks, in every interleaving
of creates that is accounted for. -/
theorem refused_create_charges_nothing (quantities : Quantities) (ns : String) (names : List String)
    (store : ObjectStore) (state : State)
    (reached : Transition.Reaches (State.step quantities ns names)
      (fun state action => state.accounted quantities ns action = true) (State.start store) state)
    (index : Nat) (request : Request) (found : state.requests[index]? = some request)
    (error : ApiError) (refused : request.phase = .finished (.error (.api error)))
    (name key : String) (tracks : Tracks ns name key store) :
    contribution quantities name key state.landed index = 0 := by
  have both : state.Sound quantities ns ∧ Ledger quantities ns name key store state := by
    apply reached.invariant
    · exact ⟨start_sound store, tracks, by simp [State.start], by simp [State.start],
        by simp [State.start, contribution]⟩
    · intro before action after inv allowed taken
      have moved := step_moved taken
      exact ⟨step_sound inv.1 moved, step_ledger inv.2 inv.1 allowed moved⟩
  have balanced := both.2.balanced index request found
  rwa [refused] at balanced

end

def Request.error? (request : Request) : Option ApiError :=
  match request.phase with
  | .finished (.error (.api error)) => some error
  | _ => none

theorem Request.error?_eq_some {request : Request} {error : ApiError}
    (refused : request.error? = some error) : request.phase = .finished (.error (.api error)) := by
  unfold error? at refused
  split at refused
  · rename_i isPhase
    rw [isPhase, some.inj refused]
  · cases refused

/-- One quota with room for pods and services, and one with room for a last pod. -/
def twoQuotas : ObjectStore :=
  (ObjectStore.empty.write (teamKey "a")
    (quotaOf "a" [("pods", "9", "0"), ("services", "99", "0")])).write
    (teamKey "b") (quotaOf "b" [("pods", "1", "0")])

def createService : Create :=
  ⟨"services", .object [("metadata", .object [("name", .string "web")]), ("spec", .object [])]⟩

/-- Two pods, and some services, all find room. -/
def allFindRoom (services : Nat) : List Action :=
  [.arrive createPod, .arrive createPod, .list 0 false, .list 1 false] ++
    List.replicate services (.arrive createService) ++
    (List.range services).map fun number => .list (number + 2) false

/-- The second pod is charged to the first quota and then finds no room in the second. -/
def secondRefused : List Action :=
  [.read 0 none "now", .write 0 .served, .read 0 none "now", .write 0 .served, .read 1 none "now",
    .write 1 .served, .read 1 none "now"]

theorem refused_create_charges_nothing_pod :
    ∃ (state : State) (request : Request) (error : ApiError),
    Transition.Reaches (State.step decimal "team" ["a", "b"])
      (fun state action => state.accounted decimal "team" action = true) (State.start twoQuotas)
      state ∧
    (state.requests[1]? = some request ∧ request.error? = some error ∧ state.landed.length = 4) ∧
    contribution decimal "a" "pods" state.landed 1 = 0 := by
  simp only [exists_and_left]
  refine Transition.exists_reaches_of
    (allFindRoom 0 ++ secondRefused ++ [.read 1 none "now", .write 1 .served])
    (fun state => ((state.requests[1]?).any fun request => request.error?.isSome) &&
      state.landed.length == 4) (by decide +kernel) fun state reached passed => ?_
  obtain ⟨some, four⟩ := Bool.and_eq_true_iff.mp passed
  obtain ⟨request, found, isError⟩ := (Option.any_eq_true _ _).mp some
  have ⟨error, refused⟩ := isSome_iff_exists.mp isError
  have tracks : Tracks "team" "a" "pods" twoQuotas :=
    ⟨_, _, by rw [twoQuotas, write_entries_of_ne _ _ _ (by decide)]; rfl, rfl, rfl⟩
  exact ⟨request, error, ⟨found, refused, beq_iff_eq.mp four⟩,
    refused_create_charges_nothing decimal "team" ["a", "b"] twoQuotas state reached 1 request found
      error (error?_eq_some refused) "a" "pods" tracks⟩

/-- The roll-back of the second pod loses its ten swaps to the charges of ten services. -/
def tenLost : List Action :=
  (List.range 10).flatMap fun number =>
    [.read 1 none "now", .read (number + 2) none "now", .write (number + 2) .served,
      .write 1 .served]

theorem refused_create_stays_charged : ∃ (state : State) (request : Request) (error : ApiError),
    Transition.Reaches (State.step decimal "team" ["a", "b"])
      (fun _ action => action.isAdmission = true) (State.start twoQuotas) state ∧
    state.requests[1]? = some request ∧ request.phase = .finished (.error (.api error)) ∧
    contribution decimal "a" "pods" state.landed 1 = 1 := by
  simp only [exists_and_left]
  refine Transition.exists_reaches_of (allFindRoom 10 ++ secondRefused ++ tenLost)
    (fun state => ((state.requests[1]?).any fun request => request.error?.isSome) &&
      contribution decimal "a" "pods" state.landed 1 == 1) (by decide +kernel)
    fun state reached passed => ?_
  obtain ⟨some, one⟩ := Bool.and_eq_true_iff.mp passed
  obtain ⟨request, found, isError⟩ := (Option.any_eq_true _ _).mp some
  have ⟨error, refused⟩ := isSome_iff_exists.mp isError
  exact ⟨request, found, error, error?_eq_some refused, beq_iff_eq.mp one⟩

end Rustkube.Quota
