import Mathlib.Order.Nat
import Rustkube.Lib.Transition

/- Compaction of the datastore: every API server runs rounds, coordinated by one key. -/
namespace Rustkube.Compaction

open List Transition

/-- What an API server remembers between rounds: the key's version it last saw, and the store's
revision of that round. -/
structure Round where
  seen : Nat := 0
  revision : Nat := 0

/-- The answer to `compact_claim`. -/
structure Claim where
  won : Bool
  seen : Nat
  revision : Nat

/-- `round` once it has the answer to its claim: what it remembers, and the revision it compacts
to. -/
def Round.next (last : Round) (claim : Claim) : Round × Option Nat :=
  (⟨claim.seen, claim.revision⟩,
    if !claim.won || last.revision == 0 then none else some last.revision)

inductive Phase where
  | sleeping
  /-- the claim is on its way -/
  | claiming
  /-- the answer to the claim is on its way -/
  | answered (claim : Claim)
  | compacting (next : Round)

/-- The loop of a server. `rested` is when it last went to sleep: at the end of a round or the
start. -/
structure Process where
  state : Round
  phase : Phase
  rested : Nat

/-- A compaction a server asks for, with when its round before ended. -/
structure Request where
  target : Nat
  previous : Nat
  sent : Nat
deriving DecidableEq

/-- `timeline` has the time of every write, the newest first: revisions count writes. `version` is
that of `compact_rev_key`, and `wins` has the versions at which it was claimed. -/
structure Store (Server : Type) where
  now : Nat
  timeline : List Nat
  version : Nat
  wins : List (Nat × Server)
  clock : ∀ time ∈ timeline, time ≤ now
  ordered : (version :: wins.map Prod.fst).Pairwise (· > ·)

structure World (Server : Type) where
  store : Store Server
  servers : Server → Process
  requests : List Request

variable {Server : Type}

namespace Store

def revision (store : Store Server) : Nat := store.timeline.length

/-- The newest revision at that time. -/
def revisionAt (store : Store Server) (time : Nat) : Nat :=
  (store.timeline.filter (· ≤ time)).length

def tick (store : Store Server) (elapsed : Nat) : Store Server :=
  { store with
    now := store.now + elapsed
    clock := fun time before => (store.clock time before).trans (Nat.le_add_right _ _) }

def write (store : Store Server) : Store Server :=
  { store with
    timeline := store.now :: store.timeline
    clock := forall_mem_cons.mpr ⟨le_rfl, store.clock⟩ }

/-- The transaction of `compact_claim`. -/
def claim (store : Store Server) (server : Server) (seen : Nat) : Store Server :=
  if store.version = seen then
    { store.write with
      version := store.version + 1
      wins := (store.version, server) :: store.wins
      ordered := pairwise_cons.mpr ⟨forall_mem_cons.mpr ⟨Nat.lt_succ_self _, fun _ won =>
        (rel_of_pairwise_cons store.ordered won).trans (Nat.lt_succ_self _)⟩, store.ordered⟩ }
  else store

/-- Without a header in the transaction's answer the revision is 0. -/
def compactClaim (store : Store Server) (server : Server) (seen : Nat) (header : Bool) : Claim where
  won := store.version = seen
  seen := if store.version = seen then seen + 1 else store.version
  revision := if header then (store.claim server seen).revision else 0

end Store

/-- Servers that start on a store with some history. -/
def World.init (revision version : Nat) : World Server :=
  ⟨⟨0, replicate revision 0, version, [], by simp, by simp⟩, fun _ => ⟨{}, .sleeping, 0⟩, []⟩

inductive Event where
  | wake
  | serve (header : Bool)
  /-- the claim returns an error -/
  | fail
  | receive
  /-- the compaction returns, with an error or without -/
  | finish
  | restart

def Process.step (interval : Nat) (store : Store Server) (server : Server) :
    Process → Event → Option (Store Server × Process × List Request)
  | ⟨state, .sleeping, rested⟩, .wake =>
    if rested + interval ≤ store.now then some (store, ⟨state, .claiming, rested⟩, []) else none
  | ⟨state, .claiming, rested⟩, .serve header =>
    some (store.claim server state.seen,
      ⟨state, .answered (store.compactClaim server state.seen header), rested⟩, [])
  | ⟨state, .claiming, _⟩, .fail | ⟨state, .answered _, _⟩, .fail =>
    some (store, ⟨state, .sleeping, store.now⟩, [])
  | ⟨state, .answered claim, rested⟩, .receive =>
    match state.next claim with
    | (next, none) => some (store, ⟨next, .sleeping, store.now⟩, [])
    | (next, some target) =>
      some (store, ⟨state, .compacting next, rested⟩, [⟨target, rested, store.now⟩])
  | ⟨_, .compacting next, _⟩, .finish => some (store, ⟨next, .sleeping, store.now⟩, [])
  | _, .restart => some (store, ⟨{}, .sleeping, store.now⟩, [])
  | _, _ => none

inductive Action (Server : Type) where
  | tick (elapsed : Nat)
  /-- some other write -/
  | storeOther
  /-- a claim whose sender has given up on it -/
  | serveLate (server : Server) (seen : Nat)
  | act (server : Server) (event : Event)

def step [DecidableEq Server] (interval : Nat) (world : World Server) :
    Action Server → Option (World Server)
  | .tick elapsed => some { world with store := world.store.tick elapsed }
  | .storeOther => some { world with store := world.store.write }
  | .serveLate server seen => some { world with store := world.store.claim server seen }
  | .act server event =>
    ((world.servers server).step interval world.store server event).map
        fun (store, process, requests) =>
      ⟨store, Function.update world.servers server process, requests ++ world.requests⟩

/-- What a server knows is of its time. -/
def Process.Known (interval : Nat) (store : Store Server) : Process → Prop
  | ⟨state, phase, rested⟩ => rested ≤ store.now ∧ state.revision ≤ store.revisionAt rested ∧
    match phase with
    | .sleeping => True
    | .claiming => rested + interval ≤ store.now
    | .answered claim => rested + interval ≤ store.now ∧ claim.revision ≤ store.revision
    | .compacting next => next.revision ≤ store.revision

/-- The target was current when the server's round before ended, an interval ago or earlier. -/
def Request.Old (interval : Nat) (store : Store Server) (request : Request) : Prop :=
  request.target ≤ store.revisionAt request.previous ∧ request.previous + interval ≤ request.sent

structure Invariant (interval : Nat) (world : World Server) : Prop where
  servers : ∀ server, (world.servers server).Known interval world.store
  requests : ∀ request ∈ world.requests, request.Old interval world.store

variable {interval : Nat} {store before after : Store Server}

structure Later (before after : Store Server) : Prop where
  now : before.now ≤ after.now
  timeline : before.timeline <:+ after.timeline

theorem Later.revisionAt_le (later : Later before after) (time : Nat) :
    before.revisionAt time ≤ after.revisionAt time :=
  (later.timeline.sublist.filter _).length_le

theorem Process.Known.later {process : Process} (known : process.Known interval before)
    (later : Later before after) : process.Known interval after := by
  have ⟨rested, state, waited⟩ := known
  have := later.now
  have := later.revisionAt_le process.rested
  have : before.revision ≤ after.revision := later.timeline.length_le
  refine ⟨by omega, by omega, ?_⟩
  cases isPhase : process.phase <;> simp only [isPhase] at waited ⊢ <;> omega

theorem later_claim (server : Server) (seen : Nat) : Later store (store.claim server seen) := by
  unfold Store.claim
  split_ifs
  · exact ⟨le_rfl, suffix_cons _ _⟩
  · exact ⟨le_rfl, suffix_rfl⟩

theorem Process.known_sleeping {state : Round} (current : state.revision ≤ store.revision) :
    Process.Known interval store ⟨state, .sleeping, store.now⟩ := by
  have now : store.revisionAt store.now = store.revision := by
    rw [Store.revisionAt, filter_eq_self.mpr (by simpa using store.clock), Store.revision]
  exact ⟨le_rfl, now.symm ▸ current, trivial⟩

/-- What a step of one server leaves, and what it asks for. -/
theorem Process.Known.step {process next : Process} {server : Server} {event : Event}
    {requests : List Request} (known : process.Known interval store)
    (taken : process.step interval store server event = some (after, next, requests)) :
    Later store after ∧ next.Known interval after ∧ ∀ request ∈ requests,
      request.Old interval after := by
  have still : Later store store := ⟨le_rfl, suffix_rfl⟩
  have ⟨past, isState, isPhase⟩ := known
  revert taken
  fun_cases Process.step with
  | case1 state rested waited =>
    rintro ⟨⟩
    exact ⟨still, ⟨past, isState, waited⟩, nofun⟩
  | case3 state rested header =>
    rintro ⟨⟩
    have ⟨past, isState, waited⟩ := known.later (later_claim server state.seen)
    refine ⟨later_claim server state.seen, ⟨past, isState, waited, ?_⟩, nofun⟩
    show (if header then _ else 0) ≤ _
    split_ifs <;> omega
  | case4 | case5 =>
    rintro ⟨⟩
    exact ⟨still, known_sleeping (isState.trans (length_filter_le _ _)), nofun⟩
  | case6 state claim rested next isNext =>
    rintro ⟨⟩
    obtain rfl := (Prod.ext_iff.mp isNext).1
    exact ⟨still, known_sleeping isPhase.2, nofun⟩
  | case7 state claim rested next target isNext =>
    rintro ⟨⟩
    simp only [Round.next, Prod.mk.injEq] at isNext
    obtain ⟨rfl, compacts⟩ := isNext
    split_ifs at compacts
    obtain rfl := Option.some.inj compacts
    exact ⟨still, ⟨past, isState, isPhase.2⟩, forall_mem_singleton.mpr ⟨isState, isPhase.1⟩⟩
  | case8 =>
    rintro ⟨⟩
    exact ⟨still, known_sleeping isPhase, nofun⟩
  | case9 =>
    rintro ⟨⟩
    exact ⟨still, known_sleeping (Nat.zero_le _), nofun⟩
  | case2 | case10 => nofun

variable {world next : World Server}

theorem Invariant.later (inv : Invariant interval world) (later : Later world.store store) :
    Invariant interval { world with store } :=
  ⟨fun server => (inv.servers server).later later, fun request member =>
    (inv.requests request member).imp_left (·.trans (later.revisionAt_le _))⟩

variable [DecidableEq Server]

theorem Invariant.step (inv : Invariant interval world) {action : Action Server}
    (taken : step interval world action = some next) : Invariant interval next := by
  cases action with
  | tick elapsed =>
    cases taken
    exact inv.later ⟨Nat.le_add_right _ _, suffix_rfl⟩
  | storeOther =>
    cases taken
    exact inv.later ⟨le_rfl, suffix_cons _ _⟩
  | serveLate server seen =>
    cases taken
    exact inv.later (later_claim server seen)
  | act server event =>
    have ⟨⟨store, process, requests⟩, acted, isNext⟩ := Option.map_eq_some_iff.mp taken
    have ⟨later, known, old⟩ := (inv.servers server).step acted
    have inv := inv.later later
    subst isNext
    refine ⟨fun other => ?_, forall_mem_append.mpr ⟨old, inv.requests⟩⟩
    by_cases same : other = server
    · subst same
      simpa using known
    · simpa [same] using inv.servers other

/-- In every run of any servers, with any delays, lost answers and restarts, each version of the key
is claimed once, and every compaction asked for is of a revision that was current when the server's
round before ended, an interval ago or earlier. -/
theorem compaction_coordinated {revision version : Nat}
    (reached : Reaches (step interval) (fun _ _ => True) (World.init revision version) world) :
    (world.store.wins.map Prod.fst).Nodup ∧ ∀ request ∈ world.requests,
      request.target ≤ world.store.revisionAt request.previous ∧
        request.previous + interval ≤ request.sent := by
  have inv : Invariant interval world :=
    reached.invariant ⟨fun server => ⟨le_rfl, Nat.zero_le _, trivial⟩, nofun⟩
      fun _ _ _ inv _ taken => inv.step taken
  exact ⟨world.store.ordered.of_cons.imp Nat.ne_of_gt, inv.requests⟩

/-- Two servers in step: the claim of `first` is served before that of the other. -/
def rounds (first : Bool) : List (Action Bool) :=
  [.tick 5, .act true .wake, .act false .wake, .act first (.serve true), .act (!first)
    (.serve true), .act true .receive, .act false .receive]

/-- One server wins the first round and the other the second, and only that one compacts then. -/
theorem compaction_coordinated_secondRound : ∃ world : World Bool,
    Reaches (step 5) (fun _ _ => True) (World.init 3 0) world ∧
      world.store.wins = [(1, false), (0, true)] ∧ world.requests = [⟨4, 5, 10⟩] ∧
      4 ≤ world.store.revisionAt 5 := by
  refine exists_reaches_of (rounds true ++ .storeOther :: rounds false)
    (fun world => decide (world.store.wins = [(1, false), (0, true)] ∧
      world.requests = [⟨4, 5, 10⟩]))
    (by decide) fun world reached both => ?_
  have ⟨wins, request⟩ := of_decide_eq_true both
  exact ⟨wins, request, ((compaction_coordinated reached).2 ⟨4, 5, 10⟩ (by simp [request])).1⟩

end Rustkube.Compaction
