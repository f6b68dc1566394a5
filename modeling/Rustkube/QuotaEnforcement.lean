import Rustkube.QuotaAdmission

namespace Rustkube.Quota

open Bool List ObjectStore Request State Json

section

/-- Every resource that the quota tracks has a limit. -/
def Limited (quota : Value) : Prop :=
  ∀ hard key, specHard quota = some hard → (hard.get? key).isSome = true →
    ∃ limit, quota["status"]["hard"].get? key = some limit

variable {quantities : Quantities} {ns : String} {names : List String} {state after : State}

theorem IsCharged.limited {direction : Direction} {delta : Usage} {hard : Json.Fields}
    {quota changed : Value} (charged : IsCharged quantities direction delta hard quota changed)
    (limited : Limited quota) : Limited changed := by
  intro tracked key isHard has
  rw [specHard, charged.spec] at isHard
  rw [charged.hard]
  exact limited tracked key isHard has

/-- The quotas of the namespace stay limited, and so were those that charges were made to. -/
structure State.Limited (ns : String) (state : State) : Prop where
  quotas : ∀ name entry, state.store.entries (namespacedKey "resourcequotas" ns name) = some entry →
    Quota.Limited entry.object
  landed : ∀ landed ∈ state.landed, Quota.Limited landed.before

/-- Other writers leave the quotas alone. -/
def Action.isAdmission : Action → Bool
  | .foreign _ _ => false
  | _ => true

end

section

variable (quantities : Quantities) (ns : String) (names : List String)

/-- A charge to a quota was written for the request of that number. -/
def Taken (landed : List Landed) (index : Nat) (item : Item) : Prop :=
  ∃ made ∈ landed, made.request = index ∧ made.direction = .take ∧ made.item = item

/-- Every quota that covers the object, and tracks anything of it, is one of the items. -/
def Create.Planned (create : Create) (quotas : List (String × Value)) (items : List Item) : Prop :=
  ∀ entry ∈ quotas, create.covered quantities entry.2 = true →
    (create.delta quantities entry.2).isEmpty = true ∨
      ⟨entry.1, create.delta quantities entry.2⟩ ∈ items

/-- The charge adds what it is for to what is used of every resource that the quota tracks. -/
def Landed.Adds (landed : Landed) : Prop :=
  ∃ hard, specHard landed.before = some hard ∧ ∀ key, (hard.get? key).isSome = true →
    landed.after["status"]["used"].get? key = some (.string (format key
      ((usedOf quantities landed.before).amount key + landed.item.delta.amount key)))

/-- Every quota of the namespace was read and charged. -/
def Request.Charged (landed : List Landed) (index : Nat) (request : Request) : Prop :=
  ∃ quotas, request.present = some quotas ∧
    ∀ entry ∈ quotas, request.create.covered quantities entry.2 = true →
      (request.create.delta quantities entry.2).isEmpty = true ∨
        ∃ made ∈ landed, made.request = index ∧
          made.item = ⟨entry.1, request.create.delta quantities entry.2⟩ ∧ made.Adds quantities

/-- The list does not fail, finds no more quotas than it returns, each under its own name; and a
quota that is to be charged still tracks something. -/
def State.listed (state : State) : Action → Bool
  | .list _ fails =>
    let quotas := presentQuotas ns names state.store
    !fails && quotas.length ≤ 500 && quotas.all fun entry => nameOf entry.2 == entry.1
  | .read index _ _ =>
    (state.requests[index]?).all fun request => request.phase.current.all fun (direction, call) =>
      direction == .giveBack ||
        (state.store.entries (call.item.key ns)).all fun entry => (specHard entry.object).isSome
  | _ => true

/-- What a request has charged, and has still to charge, covers what it found. -/
def Request.Progress (landed : List Landed) (index : Nat) (request : Request)
    (done todo : List Item) : Prop :=
  (∀ item ∈ done, Taken landed index item) ∧
    ∃ quotas, request.present = some quotas ∧ request.create.Planned quantities quotas
      (done ++ todo)

def Request.Complete (landed : List Landed) (index : Nat) (request : Request) : Prop :=
  match request.phase with
  | .charging done call rest => request.Progress quantities landed index done (call.item :: rest)
  | .finished (.ok ()) => ∃ done, request.Progress quantities landed index done []
  | _ => True

variable {quantities ns names} {state after : State} {landed : List Landed} {index : Nat}
  {request : Request} {direction : Direction} {call : Charge} {create : Create}

theorem Create.plan_ok {quotas : List Value} {items : List Item}
    (planned : create.plan quantities quotas = .ok items) :
    ∀ quota ∈ quotas, create.covered quantities quota = true →
      (create.delta quantities quota).isEmpty = true ∨
        ⟨nameOf quota, create.delta quantities quota⟩ ∈ items := by
  induction quotas generalizing items with
  | nil => simp
  | cons first rest ih =>
    intro quota member covered
    unfold plan at planned
    split_ifs at planned with skipped
    · rcases mem_cons.mp member with rfl | later
      · simp only [covered, Bool.not_true, Bool.false_or, and_eq_true] at skipped
        exact .inl skipped.1
      · exact ih planned quota later covered
    · split at planned
      · cases planned
      · cases others : create.plan quantities rest with
        | error failure =>
          rw [others] at planned
          cases planned
        | ok found =>
          rw [others] at planned
          cases planned
          rcases mem_cons.mp member with rfl | later
          · exact Or.inr mem_cons_self
          · exact (ih others quota later covered).imp_right (mem_cons_of_mem _)

variable {more : List Landed} {fault : Option StoreError} {next : Request} {now : String}
  {item : Item}

theorem Made.adds {made : Landed}
    (charge : Made quantities made.create made.direction made.item made.before made.after)
    (taken : made.direction = .take) : made.Adds quantities := by
  have ⟨hard, isHard, charged⟩ := charge.charged
  refine ⟨hard, isHard, fun key has => ?_⟩
  have ⟨limit, isLimit⟩ := Option.isSome_iff_exists.mp has
  rw [charged.used, resourceList_get?, isLimit, chargedUsage_amount, taken]
  rfl

theorem Taken.mono (taken : Taken landed index item) : Taken (landed ++ more) index item := by
  have ⟨made, member, isMade⟩ := taken
  exact ⟨made, mem_append_left _ member, isMade⟩

theorem Request.Progress.mono {done todo : List Item}
    (progress : request.Progress quantities landed index done todo) :
    request.Progress quantities (landed ++ more) index done todo :=
  ⟨fun item member => (progress.1 item member).mono, progress.2⟩

theorem Request.Complete.mono (complete : request.Complete quantities landed index) :
    request.Complete quantities (landed ++ more) index := by
  unfold Complete at complete ⊢
  split
  · rename_i done charge rest isPhase
    rw [isPhase] at complete
    exact Progress.mono complete
  · rename_i isPhase
    rw [isPhase] at complete
    have ⟨done, progress⟩ := complete
    exact ⟨done, progress.mono⟩
  · trivial

theorem Request.charge_complete {done todo : List Item}
    (progress : request.Progress quantities landed index done todo) :
    Complete quantities landed index { request with phase := .charge done todo } := by
  cases todo with
  | nil => exact ⟨done, progress⟩
  | cons item rest => exact progress

theorem Request.rollBack_complete (error : ApiError) (todo : List Item) :
    Complete quantities landed index { request with phase := .rollBack error todo } := by
  cases todo with
  | nil | cons => trivial

section

variable (complete : request.Complete quantities landed index)

include complete

variable (current : request.phase.current = some (direction, call))

include current

theorem Request.settle_complete {result : Except ApiError Unit}
    (paid : result = .ok () → direction = .take → Taken landed index call.item) :
    Complete quantities landed index
      { request with phase := request.phase.settle request.create result } := by
  have ⟨create, phase, present⟩ := request
  cases phase with
  | charging done held rest =>
    cases current
    cases result with
    | error error => exact rollBack_complete ..
    | ok =>
      have ⟨quotas, isPresent, planned⟩ := complete.2
      exact charge_complete ⟨forall_mem_concat complete.1 (paid rfl rfl), quotas, isPresent,
        by simpa using planned⟩
  | rolling error held rest =>
    cases current
    exact rollBack_complete ..
  | listing | finished => cases current

theorem Request.withCharge_complete {next : Charge} (same : next.item = call.item) :
    Complete quantities landed index { request with phase := request.phase.withCharge next } := by
  have ⟨create, phase, present⟩ := request
  cases phase with
  | charging done held rest =>
    cases current
    unfold Complete Progress
    dsimp only [Phase.withCharge]
    rw [same]
    exact complete
  | rolling error held rest => trivial
  | listing | finished => cases current

theorem Request.answered_complete {result : Except StoreError Unit}
    (paid : result = .ok () → direction = .take → Taken landed index call.item) :
    (request.answered call result).Complete quantities landed index := by
  unfold answered Phase.answered
  split
  · exact settle_complete complete current fun _ => paid rfl
  · split_ifs
    · exact settle_complete complete current (by simp)
    · exact withCharge_complete complete current rfl
  · exact settle_complete complete current (by simp)

end

theorem Charge.attempt_none {store : ObjectStore}
    (attempted : attempt quantities ns create direction item fault now store = .ok none) :
    ∃ entry, store.entries (item.key ns) = some entry ∧ specHard entry.object = none := by
  unfold attempt at attempted
  split at attempted
  · cases attempted
  · cases attempted
  · rename_i entry found
    split at attempted
    · cases attempted
    · split at attempted
      · rename_i untracked
        exact ⟨entry, found, untracked⟩
      · have ⟨object, _, attempted⟩ := bind_eq_ok.mp attempted
        cases pure_eq_ok.mp attempted

theorem Request.read_complete (complete : request.Complete quantities landed index)
    (current : request.phase.current = some (direction, call))
    (tracks : direction = .take → ∀ entry, state.store.entries (call.item.key ns) = some entry →
      (specHard entry.object).isSome = true) :
    (request.read quantities ns direction call state.store fault now).Complete quantities landed
      index := by
  unfold read
  cases attempted : Charge.attempt quantities ns request.create direction call.item fault now
      state.store with
  | ok outcome =>
    cases outcome with
    | some prepared => exact withCharge_complete complete current rfl
    | none =>
      dsimp only [Phase.attempted]
      refine settle_complete complete current fun _ isTake => ?_
      have ⟨entry, found, untracked⟩ := Charge.attempt_none attempted
      have tracked := tracks isTake entry found
      rw [untracked] at tracked
      cases tracked
  | error failure =>
    cases failure with
    | api error =>
      dsimp only [Phase.attempted]
      exact settle_complete complete current (by simp)
    | panic => trivial

theorem Request.list_complete (allowed : state.listed ns names (.list index false) = true) :
    (request.list quantities ns names state.store false).Complete quantities landed index := by
  simp only [listed, Bool.not_false, Bool.true_and, and_eq_true, decide_eq_true_eq,
    all_eq_true, beq_iff_eq] at allowed
  obtain ⟨few, named⟩ := allowed
  unfold list
  dsimp only
  rw [take_of_length_le few, if_neg (by decide)]
  split
  · rename_i items planned
    have progress : Progress quantities landed index
        ⟨request.create, .listing, some (presentQuotas ns names state.store)⟩ [] items := by
      refine ⟨by simp, _, rfl, fun entry member covered => ?_⟩
      have found := Create.plan_ok planned entry.2 (mem_map_of_mem member) covered
      rwa [named entry member] at found
    exact charge_complete progress
  · trivial

def State.Complete (quantities : Quantities) (state : State) : Prop :=
  ∀ (index : Nat) (request : Request), state.requests[index]? = some request →
    request.Complete quantities state.landed index

theorem State.Complete.move (complete : state.Complete quantities)
    (store : ObjectStore) (more : List Landed)
    (isComplete : next.Complete quantities (state.landed ++ more) index) :
    Complete quantities ⟨store, state.requests.set index next, state.landed ++ more⟩ := by
  intro number request found
  rcases getElem?_set_cases found with ⟨rfl, rfl⟩ | ⟨-, found⟩
  · exact isComplete
  · exact (complete number request found).mono

theorem State.Complete.set (complete : state.Complete quantities)
    (isComplete : next.Complete quantities state.landed index) :
    (state.set index next).Complete quantities := by
  have moved := complete.move state.store [] (append_nil state.landed ▸ isComplete)
  rwa [append_nil] at moved

theorem State.step_complete {action : Action} (allowed : state.listed ns names action = true)
    (complete : state.Complete quantities)
    (moved : Moved quantities ns names state action after) : after.Complete quantities := by
  cases moved with
  | arrive =>
    intro index request found
    rcases getElem?_concat_cases found with old | ⟨-, rfl⟩
    · exact complete index request old
    · trivial
  | @list number fails request found isListing =>
    have served : fails = false := by
      simp only [listed, and_eq_true, not_eq_true'] at allowed
      exact allowed.1.1
    subst served
    exact complete.set (list_complete allowed)
  | @read number fault now request direction call found current =>
    refine complete.set (read_complete (complete number request found) current ?_)
    intro isTake entry stored
    simpa [listed, found, current, isTake, stored] using allowed
  | @refused number answer request direction call prepared error found current isPrepared told =>
    exact complete.set (answered_complete (complete number request found) current (by simp))
  | @landed number answer request direction call prepared store result found current isPrepared put
      told =>
    refine complete.move store _ (answered_complete (complete number request found).mono current ?_)
    intro _ isTake
    exact ⟨_, mem_append_right _ (mem_singleton.mpr rfl), rfl, isTake, rfl⟩
  | foreign landed => exact complete

/-- In every interleaving, `admit` returns `Ok` only to a create that was charged to every quota
which the namespace had and which covers it, while the list is served and complete. -/
theorem admit_ok_charged (quantities : Quantities) (ns : String) (names : List String)
    (store : ObjectStore) (state : State)
    (reached : Transition.Reaches (State.step quantities ns names)
      (fun state action => state.listed ns names action = true) (State.start store) state)
    (index : Nat) (request : Request) (found : state.requests[index]? = some request)
    (admitted : request.phase = .finished (.ok ())) :
    request.Charged quantities state.landed index := by
  have all : state.Sound quantities ns ∧ state.Complete quantities := by
    apply reached.invariant
    · exact ⟨start_sound store, by simp [State.Complete, State.start]⟩
    · intro before action after inv allowed taken
      have moved := step_moved taken
      exact ⟨step_sound inv.1 moved, step_complete allowed inv.2 moved⟩
  have complete := all.2 index request found
  rw [Request.Complete, admitted] at complete
  obtain ⟨done, taken, quotas, isPresent, planned⟩ := complete
  refine ⟨quotas, isPresent, fun entry member covered => ?_⟩
  rcases planned entry member covered with none | isItem
  · exact .inl none
  · obtain ⟨made, isMade, ofRequest, isTake, ofItem⟩ :=
      taken ⟨entry.1, request.create.delta quantities entry.2⟩ (by simpa using isItem)
    exact .inr ⟨made, isMade, ofRequest, ofItem, (all.1.landed made isMade).adds isTake⟩

end

/-- Counts that are plain numbers. Nothing is read as CPU. -/
def decimal : Quantities :=
  ⟨fun _ => 0, fun text => .ofNat ((parseU64Text text).getD 0), fun _ => ""⟩

/-- A quota with the given limits, and what is used of each. -/
def quotaOf (name : String) (limits : List (String × String × String)) : Value := .object [
  ("metadata", .object [("name", .string name)]),
  ("spec", .object [("hard", .object (limits.map fun limit => (limit.1, .string limit.2.1)))]),
  ("status", .object [("hard", .object (limits.map fun limit => (limit.1, .string limit.2.1))),
    ("used", .object (limits.map fun limit => (limit.1, .string limit.2.2)))])]

def teamKey (name : String) : String := namespacedKey "resourcequotas" "team" name

/-- One quota, with room for one more pod. -/
def onePod : ObjectStore :=
  ObjectStore.empty.write (teamKey "pods") (quotaOf "pods" [("pods", "1", "0")])

def createPod : Create :=
  ⟨"pods", .object [("metadata", .object [("name", .string "web")]), ("spec", .object [])]⟩

def Request.admitted (request : Request) : Bool :=
  match request.phase with
  | .finished (.ok ()) => true
  | _ => false

theorem admit_ok_charged_pod : ∃ (state : State) (request : Request),
    Transition.Reaches (State.step decimal "team" ["pods"])
      (fun state action => state.listed "team" ["pods"] action = true) (State.start onePod) state ∧
    state.requests[0]? = some request ∧ request.admitted = true ∧ state.landed.length = 1 ∧
    request.Charged decimal state.landed 0 := by
  simp only [exists_and_left]
  refine Transition.exists_reaches_of
    [.arrive createPod, .list 0 false, .read 0 none "now", .write 0 .served]
    (fun state => (state.requests[0]?).any Request.admitted && state.landed.length == 1)
    (by decide +kernel) fun state reached passed => ?_
  obtain ⟨some, one⟩ := and_eq_true_iff.mp passed
  obtain ⟨request, found, admitted⟩ := (Option.any_eq_true _ _).mp some
  refine ⟨request, found, admitted, beq_iff_eq.mp one,
    admit_ok_charged decimal "team" ["pods"] onePod state reached 0 request found ?_⟩
  unfold Request.admitted at admitted
  split at admitted
  · assumption
  · cases admitted

/-- A pod is admitted past a quota that has no room when the quotas cannot be listed. -/
theorem admit_open_on_failure : ∃ (state : State) (request : Request),
    Transition.Reaches (State.step decimal "team" ["pods"]) (fun _ _ => True)
      (State.start (ObjectStore.empty.write (teamKey "pods") (quotaOf "pods" [("pods", "0", "0")])))
      state ∧
    state.requests[0]? = some request ∧ request.phase = .finished (.ok ()) ∧
    ¬ request.Charged decimal state.landed 0 := by
  refine ⟨_, _, Transition.Reaches.start.run [.arrive createPod, .list 0 true] rfl, rfl, rfl, ?_⟩
  rintro ⟨quotas, isPresent, charged⟩
  cases isPresent
  rcases charged _ (.head _) (by decide +kernel) with empty | ⟨made, member, -⟩
  · exact absurd empty (by decide +kernel)
  · cases member

end Rustkube.Quota
