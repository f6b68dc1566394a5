import Rustkube.ControllerObjects

/- The controllers' client creates children of an owner. A create that timed out is resolved before
another child is named. -/
namespace Rustkube.ApiClient

open List Option Json Controllers

/-- The controller among the owner references, or the first of them, or the claim of a volume. -/
def createOwner (body : Value) : String :=
  let refs := (body["metadata"]["ownerReferences"].asArray?).getD []
  let owner := (refs.find? (·["controller"] = .bool true)).or refs.head?
  ((owner.bind (·["uid"].asStr?)).or body["spec"]["claimRef"]["uid"].asStr?).getD ""

structure PendingCreate where
  path : String
  body : Value
  owner : String

/-- What a create makes. -/
structure Child where
  path : String
  name : String
  owner : String
deriving DecidableEq

def PendingCreate.child (pending : PendingCreate) : Child :=
  ⟨pending.path, nameOf pending.body, pending.owner⟩

/-- The children of one owner in one collection are one group. -/
def groupOf (child : Child) : String :=
  child.path ++ "/" ++ if child.owner = "" then child.name else child.owner

/-- A create that was sent. The server has committed it, or refused it, or may still do either. -/
structure Request where
  child : Child
  fate : Option Bool
deriving DecidableEq

inductive Stage where
  | resolving
  | sending
  | waiting (index : Nat)

/-- A call of `create` under way. -/
structure Call where
  group : String
  previous : Bool
  pending : PendingCreate
  stage : Stage

/-- The client with its pending creates, the requests it ever sent, and the children that are
stored; with those it was told exist since it last asked for them. -/
structure State where
  pendingCreates : String → Option PendingCreate
  call : Option Call
  requests : List Request
  stored : List Child
  confirmed : List Child

/-- An answer of the server: what was asked for, an error status, or none that can be read. -/
inductive Reply where
  | served
  | status (code : Nat)
  | failed

inductive Action where
  | create (path : String) (body : Value)
  | get (reply : Reply)
  /-- the write gate lets the request out, or not -/
  | send (granted : Bool)
  | answer (reply : Reply)
  /-- the call is dropped -/
  | cancel
  /-- the owner is being deleted, or gone -/
  | forget (owner : String)
  | commit (index : Nat)
  | refuse (index : Nat)
  /-- children are made and deleted by others -/
  | change (stored : List Child)

/-- Refused for good. A conflict is not, where the name may be taken by an earlier request. -/
def definitive (code : Nat) (previous : Bool) : Bool :=
  400 ≤ code ∧ code < 500 ∧ (code ≠ 409 ∨ previous = false) ∧ code ≠ 408 ∧ code ≠ 429

section

variable (state : State) (call : Call)

def State.forgetGroup (group : String) : State :=
  { state with pendingCreates := Function.update state.pendingCreates group none, call := none }

/-- `create`, up to its first request. What is pending already goes first. -/
def create (path : String) (body : Value) : State :=
  match body["metadata"]["name"].asStr? with
  | none => state
  | some name =>
    let group := groupOf ⟨path, name, createOwner body⟩
    let previous := state.pendingCreates group
    let pending := previous.getD ⟨path, body, createOwner body⟩
    { state with
      pendingCreates := Function.update state.pendingCreates group (some pending)
      call := some ⟨group, previous.isSome, pending, if previous.isSome then .resolving
        else .sending⟩ }

/-- The child that was pending is looked up. -/
def resolve : Reply → State
  | .served =>
    match state.stored.find? fun child =>
      child.path = call.pending.child.path ∧ child.name = call.pending.child.name with
    | some found =>
      if found.owner = call.pending.owner then
        { state.forgetGroup call.group with confirmed := call.pending.child :: state.confirmed }
      else { state with call := none }
    | none => { state with call := some { call with stage := .sending } }
  | .status _ | .failed => { state with call := none }

def sendCreate : State :=
  { state with
    requests := state.requests ++ [⟨call.pending.child, none⟩]
    confirmed := state.confirmed.filter (· ≠ call.pending.child)
    call := some { call with stage := .waiting state.requests.length } }

def finish : Reply → State
  | .served =>
    { state.forgetGroup call.group with confirmed := call.pending.child :: state.confirmed }
  | .status code =>
    if definitive code call.previous then state.forgetGroup call.group
      else { state with call := none }
  | .failed => { state with call := none }

def forgetCreates (owner : String) : State :=
  { state with
    pendingCreates := fun group => (state.pendingCreates group).filter (·.owner ≠ owner) }

/-- The server decides on a request. A name that is taken is refused. -/
def decideOn (index : Nat) (commits : Bool) : Option State :=
  match state.requests[index]? with
  | some ⟨child, none⟩ =>
    let taken := state.stored.any fun other => other.path = child.path ∧ other.name = child.name
    let fate := commits && !taken
    some { state with
      requests := state.requests.set index ⟨child, some fate⟩
      stored := if fate then child :: state.stored else state.stored }
  | _ => none

def step : Action → Option State
  | .create path body => if state.call.isNone then some (create state path body) else none
  | .get reply =>
    match state.call with
    | some ⟨group, previous, pending, .resolving⟩ =>
      some (resolve state ⟨group, previous, pending, .resolving⟩ reply)
    | _ => none
  | .send granted =>
    match state.call with
    | some ⟨group, previous, pending, .sending⟩ =>
      some (if granted then sendCreate state ⟨group, previous, pending, .sending⟩
        else { state with call := none })
    | _ => none
  | .answer reply =>
    match state.call with
    | some ⟨group, previous, pending, .waiting index⟩ =>
      some (finish state ⟨group, previous, pending, .waiting index⟩ reply)
    | _ => none
  | .cancel => some { state with call := none }
  | .forget owner => some (forgetCreates state owner)
  | .commit index => decideOn state index true
  | .refuse index => decideOn state index false
  | .change stored => some { state with stored }

end

section

variable (state : State)

def fateOf (call : Call) : Option Bool :=
  match call.stage with
  | .waiting index => (state.requests[index]?).bind Request.fate
  | _ => none

/-- The answer to a request says what became of it; a timeout and a server's error say nothing. -/
def truthful (call : Call) : Reply → Bool
  | .served => fateOf state call = some true
  | .status code => 400 ≤ code ∧ code < 500 ∧ code ≠ 408 → fateOf state call = some false
  | .failed => true

/-- Answers are true, and a worker does not forget the owner it creates for. -/
def Permitted : Action → Prop
  | .answer reply => state.call.all (truthful state · reply) = true
  | .forget owner => state.call.all (fun call => decide (call.pending.owner ≠ owner)) = true
  | _ => True

instance (action : Action) : Decidable (Permitted state action) :=
  match action with
  | .answer _ | .forget _ => inferInstanceAs (Decidable (_ = true))
  | .create _ _ | .get _ | .send _ | .cancel | .commit _ | .refuse _ | .change _ =>
    inferInstanceAs (Decidable True)

/-- The server can still make the child, and the client has not been told of it. -/
def Uncertain (child : Child) : Prop := ⟨child, none⟩ ∈ state.requests ∧ child ∉ state.confirmed

instance (child : Child) : Decidable (Uncertain state child) := inferInstanceAs (Decidable (_ ∧ _))

/-- Nothing is forgotten that the server can still make. -/
def Settled : Action → Prop
  | .answer (.status code) => ∀ call ∈ state.call, definitive code call.previous = true →
      ¬ Uncertain state call.pending.child
  | .forget owner => ∀ request ∈ state.requests, request.child.owner = owner →
      ¬ Uncertain state request.child
  | _ => True

instance (action : Action) : Decidable (Settled state action) :=
  match action with
  | .answer (.status _) => inferInstanceAs (Decidable (∀ _ ∈ _, _))
  | .forget _ => inferInstanceAs (Decidable (∀ _ ∈ _, _))
  | .answer .served | .answer .failed | .create _ _ | .get _ | .send _ | .cancel | .commit _
  | .refuse _ | .change _ => inferInstanceAs (Decidable True)

end

section

/-- Whatever is uncertain is what its group has pending. -/
structure Invariant (state : State) : Prop where
  keyed : ∀ group pending, state.pendingCreates group = some pending → groupOf pending.child = group
  held : ∀ child, Uncertain state child →
    ∃ pending, state.pendingCreates (groupOf child) = some pending ∧ pending.child = child
  call : ∀ call ∈ state.call, state.pendingCreates call.group = some call.pending

variable {state after : State} {call : Call} {action : Action}

variable (inv : Invariant state)

include inv

theorem Invariant.frame (same : after.pendingCreates = state.pendingCreates)
    (less : ∀ child, Uncertain after child → Uncertain state child)
    (running : ∀ call ∈ after.call, ∃ before ∈ state.call,
      call.group = before.group ∧ call.pending = before.pending) : Invariant after := by
  refine ⟨same ▸ inv.keyed, fun child uncertain => ?_, fun call found => ?_⟩
  · rw [same]
    exact inv.held child (less child uncertain)
  · have ⟨before, was, isGroup, isPending⟩ := running call found
    rw [same, isGroup, isPending]
    exact inv.call before was

theorem Invariant.ended : Invariant { state with call := none } :=
  inv.frame rfl (fun _ uncertain => uncertain) nofun

theorem Invariant.forgetGroup (running : state.call = some call) (confirmed : List Child)
    (told : ∀ child ∈ state.confirmed, child ∈ confirmed)
    (settled : ¬ Uncertain { state with confirmed } call.pending.child) :
    Invariant { state.forgetGroup call.group with confirmed } := by
  refine ⟨fun group pending found => ?_, fun child uncertain => ?_, nofun⟩
  · by_cases same : group = call.group
    · simp [State.forgetGroup, same] at found
    · exact inv.keyed group pending (by simpa [State.forgetGroup, same] using found)
  · have before : Uncertain state child :=
      ⟨uncertain.1, fun known => uncertain.2 (told child known)⟩
    have ⟨pending, found, isChild⟩ := inv.held child before
    by_cases same : groupOf child = call.group
    · have isPending : some call.pending = some pending := by
        rw [← inv.call call running, ← same, found]
      cases isPending
      exact absurd (isChild ▸ uncertain) settled
    · exact ⟨pending, by simpa [State.forgetGroup, same] using found, isChild⟩

theorem create_invariant (path : String) (body : Value) : Invariant (create state path body) := by
  unfold create
  split
  · exact inv
  · next name isName =>
    dsimp only
    set group := groupOf ⟨path, name, createOwner body⟩ with isGroup
    set pending := (state.pendingCreates group).getD ⟨path, body, createOwner body⟩ with isPending
    refine ⟨fun other found was => ?_, fun child uncertain => ?_, ?_⟩
    · by_cases same : other = group
      · subst same
        obtain rfl : pending = found := by simpa using was
        cases previous : state.pendingCreates group with
        | none =>
          rw [isPending, previous, getD_none, isGroup, PendingCreate.child, nameOf, textOf, isName]
          rfl
        | some before =>
          rw [isPending, previous, getD_some]
          exact inv.keyed group before previous
      · exact inv.keyed other found (by simpa [same] using was)
    · have ⟨before, found, isChild⟩ := inv.held child uncertain
      by_cases same : groupOf child = group
      · refine ⟨pending, by simp [same], ?_⟩
        rw [isPending, ← same, found, getD_some, isChild]
      · exact ⟨before, by simpa [same] using found, isChild⟩
    · rintro call ⟨⟩
      exact Function.update_self ..

section

variable (running : state.call = some call)

include running

theorem resolve_invariant (reply : Reply) : Invariant (resolve state call reply) := by
  cases reply with
  | served =>
    simp only [resolve]
    split
    · split_ifs
      · exact inv.forgetGroup running _ (fun _ => mem_cons_of_mem _)
          fun uncertain => uncertain.2 mem_cons_self
      · exact inv.ended
    · refine inv.frame rfl (fun _ uncertain => uncertain) ?_
      rintro other ⟨⟩
      exact ⟨call, running, rfl, rfl⟩
  | status | failed => exact inv.ended

theorem sendCreate_invariant : Invariant (sendCreate state call) := by
  have pending := inv.call call running
  refine ⟨inv.keyed, fun child uncertain => ?_, ?_⟩
  · by_cases same : child = call.pending.child
    · subst same
      exact ⟨call.pending, inv.keyed _ _ pending ▸ pending, rfl⟩
    · have ⟨sent, unknown⟩ := uncertain
      have earlier : ⟨child, none⟩ ∈ state.requests := by
        simpa [sendCreate, same] using sent
      exact inv.held child ⟨earlier, fun known => unknown (mem_filter.mpr ⟨known, by simp [same]⟩)⟩
  · rintro other ⟨⟩
    exact pending

theorem finish_invariant {reply : Reply} (settled : Settled state (.answer reply)) :
    Invariant (finish state call reply) := by
  cases reply with
  | served =>
    exact inv.forgetGroup running _ (fun _ => mem_cons_of_mem _)
      fun uncertain => uncertain.2 mem_cons_self
  | status code =>
    unfold finish
    dsimp only
    split_ifs with refused
    · exact inv.forgetGroup running state.confirmed (fun _ => id) (settled call running refused)
    · exact inv.ended
  | failed => exact inv.ended

end

theorem forgetCreates_invariant {owner : String} (permitted : Permitted state (.forget owner))
    (settled : Settled state (.forget owner)) : Invariant (forgetCreates state owner) := by
  refine ⟨fun group pending found => ?_, fun child uncertain => ?_, fun call running => ?_⟩
  · exact inv.keyed group pending (filter_eq_some_iff.mp found).1
  · have ⟨pending, found, isChild⟩ := inv.held child uncertain
    refine ⟨pending, filter_eq_some_iff.mpr ⟨found, ?_⟩, isChild⟩
    have other : child.owner ≠ owner := fun same => settled ⟨child, none⟩ uncertain.1 same uncertain
    rw [← isChild] at other
    exact decide_eq_true other
  · have other := (all_eq_true _ _).mp permitted call running
    exact filter_eq_some_iff.mpr ⟨inv.call call running, other⟩

theorem decideOn_invariant {index : Nat} {commits : Bool}
    (taken : decideOn state index commits = some after) : Invariant after := by
  unfold decideOn at taken
  split at taken
  · next child found =>
    cases taken
    refine inv.frame rfl (fun other uncertain => ⟨?_, uncertain.2⟩) fun call running =>
      ⟨call, running, rfl, rfl⟩
    rcases mem_or_eq_of_mem_set uncertain.1 with before | decided
    · exact before
    · cases decided
  · cases taken

theorem step_invariant (permitted : Permitted state action) (settled : Settled state action)
    (taken : step state action = some after) : Invariant after := by
  cases action with
  | create path body =>
    simp only [step] at taken
    split_ifs at taken
    cases taken
    exact create_invariant inv path body
  | get reply =>
    simp only [step] at taken
    split at taken
    · next running =>
      cases taken
      exact resolve_invariant inv running reply
    · cases taken
  | send granted =>
    simp only [step] at taken
    split at taken
    · next running =>
      cases taken
      split_ifs
      · exact sendCreate_invariant inv running
      · exact inv.ended
    · cases taken
  | answer reply =>
    simp only [step] at taken
    split at taken
    · next running =>
      cases taken
      exact finish_invariant inv running settled
    · cases taken
  | cancel =>
    cases taken
    exact inv.ended
  | forget owner =>
    cases taken
    exact forgetCreates_invariant inv permitted settled
  | commit | refuse => exact decideOn_invariant inv taken
  | change stored =>
    cases taken
    exact inv.frame rfl (fun _ uncertain => uncertain) fun call running => ⟨call, running, rfl, rfl⟩

end

/-- A client that has sent nothing yet. -/
def fresh (stored : List Child) : State := ⟨fun _ => none, none, [], stored, []⟩

theorem fresh_invariant (stored : List Child) : Invariant (fresh stored) := by
  refine ⟨nofun, fun child uncertain => ?_, nofun⟩
  exact absurd uncertain.1 not_mem_nil

theorem one_child_uncertain {stored : List Child} {state : State}
    (reached : Transition.Reaches step
      (fun state action => Permitted state action ∧ Settled state action) (fresh stored) state)
    {path owner : String} (owned : owner ≠ "") {name other : String}
    (first : Uncertain state ⟨path, name, owner⟩) (second : Uncertain state ⟨path, other, owner⟩) :
    name = other := by
  have inv : Invariant state := reached.invariant (fresh_invariant stored)
    fun _ _ _ inv allowed taken => step_invariant inv allowed.1 allowed.2 taken
  have ⟨pending, found, isFirst⟩ := inv.held _ first
  have ⟨rival, foundRival, isSecond⟩ := inv.held _ second
  have oneGroup : groupOf ⟨path, name, owner⟩ = groupOf ⟨path, other, owner⟩ := by
    simp only [groupOf, if_neg owned]
  cases found.symm.trans (oneGroup ▸ foundRival)
  exact congrArg Child.name (isFirst.symm.trans isSecond)

/-- A Pod of the ReplicaSet `u`. -/
def pod (name : String) : Value :=
  .object [("metadata", .object [("name", .string name),
    ("ownerReferences", .array [.object [("uid", .string "u"), ("controller", .bool true)]])])]

def child (name : String) : Child := ⟨"/pods", name, "u"⟩

/-- The first Pod is sent and nothing is heard of it; the next call finds no such Pod and sends it
again. -/
def timedOut : List Action :=
  [.create "/pods" (pod "a"), .send true, .answer .failed, .create "/pods" (pod "b"), .get .served,
    .send true]

theorem one_child_uncertain_sent_again :
    ∃ state, Transition.Reaches step
        (fun state action => Permitted state action ∧ Settled state action) (fresh []) state ∧
      Uncertain state (child "a") ∧ ∀ name, Uncertain state (child name) → name = "a" := by
  refine Transition.exists_reaches_of (timedOut ++ [.answer (.status 503)])
    (fun state => decide (Uncertain state (child "a")))
      (by decide +kernel) fun state reached uncertain => ?_
  have first := of_decide_eq_true uncertain
  exact ⟨first, fun name second => (one_child_uncertain reached (by decide) first second).symm⟩

/-- The second request is refused, and the first may still be committed. -/
theorem two_children_uncertain :
    ∃ state, Transition.Reaches step Permitted (fresh []) state ∧
      (decide (Uncertain state (child "a")) && decide (Uncertain state (child "b"))) = true :=
  Transition.exists_reaches
    (timedOut ++ [.refuse 1, .answer (.status 403), .create "/pods" (pod "b"),
    .send true, .answer .failed]) (by decide +kernel)

end Rustkube.ApiClient
