import Rustkube.ObjectWrite

namespace Rustkube

open Json

/-- The subset of DeleteOptions that the deletion of a Namespace acts on. -/
structure DeleteOptions where
  preconditionUid : Option String
  preconditionRv : Option String
  dryRun : Bool
deriving DecidableEq

/-- A mismatch of a precondition is a 409. -/
def checkPreconditions (obj : Value) (opts : DeleteOptions) : Except Failure Unit :=
  if opts.preconditionUid.any fun uid => obj["metadata"]["uid"].asStr? != some uid then
    refuse .conflict "the UID in the precondition no longer matches the UID of the object"
  else if opts.preconditionRv.any fun rv =>
      obj["metadata"]["resourceVersion"].asStr? != some rv then
    refuse .conflict "the resourceVersion in the precondition no longer matches the object"
  else pure ()

def markTerminating (now : String) (obj : Value) : Option Value := do
  let ns ← openMetadata obj
  let ns ← ns.assignIn "metadata" "deletionTimestamp" (.string now)
  let ns ← openField "status" ns
  let ns ← ns.assignIn "status" "phase" (.string "Terminating")
  let finalizers := withKubernetes (specFinalizers ns)
  let ns ← openField "spec" ns
  ns.assignIn "spec" "finalizers" (.array finalizers)

def prevRevision (obj : Value) : Option Nat :=
  obj["metadata"]["resourceVersion"].asStr?.bind parseU64Text

/-- `terminate_namespace`, the Namespace half of DELETE. A dry run writes nothing. A Namespace whose
finalization is complete in `obj` is removed, whatever its version is by then. -/
def terminateNamespace (api : Api) (opts : DeleteOptions) (now : String) (obj : Value) :
    Except Failure (Option Commit) := do
  checkPreconditions obj opts
  let _ ← Admission.admitWrite api.world api.request .delete none (some obj)
  if opts.dryRun then pure none
  else if (deletionTimestamp obj).isSome && (specFinalizers obj).isEmpty then
    pure (some (.delete obj none))
  else
    let ns ← orPanic (markTerminating now obj)
    pure (some (.update ns (prevRevision ns)))

/-- The finalizers a `/finalize` request submits. -/
def submitted (body : Value) : List Value := body["spec"]["finalizers"].asArray?.getD []

/-- `finalize_namespace`: the submitted list is taken as it is, and an empty one removes a
terminating Namespace. -/
def finalizeNamespace (body obj : Value) : Except Failure (Option Commit) := do
  let obj ← orPanic (openField "spec" obj)
  let obj ← orPanic (obj.assignIn "spec" "finalizers" (.array (submitted body)))
  if (submitted body).isEmpty && (deletionTimestamp obj).isSome then
    pure (some (.delete obj none))
  else pure (some (.update obj (prevRevision obj)))

inductive NamespaceRequest where
  | delete (opts : DeleteOptions) (now : String)
  | write (change : ObjectWrite)
  | finalize (body : Value)

namespace NamespaceRequest

variable (api : Api) (codec : Patch.Codec) (key name : String)

/-- What the request's handler commits, having read the Namespace. -/
def prepare (request : NamespaceRequest) (existing : Value) : Except Failure (Option Commit) :=
  match request with
  | .delete opts now => terminateNamespace api opts now existing
  | .write change => do
    let commit ← change.prepare api codec key name none existing
    pure (some commit)
  | .finalize body => finalizeNamespace body existing

/-- The `spec.finalizers` the request leaves a stored version with. -/
def finalizersAfter (request : NamespaceRequest) (stored : Value) : List Value :=
  match request with
  | .finalize body => submitted body
  | _ => specFinalizers stored

end NamespaceRequest

/-- A request between its read and its write. -/
structure Pending where
  request : NamespaceRequest
  rules : KindRules
  entry : Entry
  commit : Commit

/-- A version that was removed, and the request that removed it. -/
structure Removal where
  request : NamespaceRequest
  stored : Value

/-- The Namespace was being deleted and no finalizer held it. -/
def Removal.Proper (removal : Removal) : Prop :=
  (deletionTimestamp removal.stored).isSome = true ∧
    removal.request.finalizersAfter removal.stored = []

structure NamespaceState where
  store : ObjectStore
  pending : List Pending
  removed : List Removal

/-- A handler reads and prepares its write, or a prepared write reaches the store. -/
inductive NamespaceAction where
  | begin (api : Api) (codec : Patch.Codec) (request : NamespaceRequest)
  | commit (index : Nat)

namespace NamespaceState

variable (key name : String)

def recordRemoval (pending : Pending) (before after : ObjectStore) : List Removal :=
  match before.entries key, after.entries key with
  | some entry, none => [⟨pending.request, entry.object⟩]
  | _, _ => []

def land (state : NamespaceState) (index : Nat) (pending : Pending) : NamespaceState :=
  match pending.commit.land pending.rules state.store key with
  | .ok after => ⟨after, state.pending.eraseIdx index,
      state.removed ++ recordRemoval key pending state.store after⟩
  | .error _ => { state with pending := state.pending.eraseIdx index }

/-- A request that is refused, or writes nothing, is no step. -/
def step (state : NamespaceState) : NamespaceAction → Option NamespaceState
  | .begin api codec request => do
    let entry ← state.store.entries key
    let existing ← (state.store.get key).toOption
    let commit ← (request.prepare api codec key name existing).toOption
    let commit ← commit
    some { state with pending := state.pending ++ [⟨request, api.rules, entry, commit⟩] }
  | .commit index => do
    let pending ← state.pending[index]?
    some (state.land key index pending)

end NamespaceState

open List NamespaceState Option Transition

variable {prev : Option Nat} {object existing : Value}

section

variable {api : Api} {codec : Patch.Codec} {key name : String}

theorem terminateNamespace_removes {opts : DeleteOptions} {now : String}
    (prepared : terminateNamespace api opts now existing = .ok (some (.delete object prev))) :
    (deletionTimestamp existing).isSome = true ∧ specFinalizers existing = [] := by
  have ⟨_, _, prepared⟩ := bind_eq_ok.mp prepared
  have ⟨_, _, prepared⟩ := bind_eq_ok.mp prepared
  split_ifs at prepared with dry complete
  · cases pure_eq_ok.mp prepared
  · simpa using complete
  · have ⟨ns, _, done⟩ := bind_eq_ok.mp prepared
    cases pure_eq_ok.mp done

theorem finalizeNamespace_removes {body : Value}
    (prepared : finalizeNamespace body existing = .ok (some (.delete object prev))) :
    (deletionTimestamp existing).isSome = true ∧ submitted body = [] := by
  have ⟨opened, first, prepared⟩ := bind_eq_ok.mp prepared
  have ⟨applied, second, prepared⟩ := bind_eq_ok.mp prepared
  have metadata : applied["metadata"] = existing["metadata"] := by
    rw [Value.assignIn_of_ne (orPanic_eq_ok.mp second) (by decide),
      openField_metadata (by decide) (orPanic_eq_ok.mp first)]
  split_ifs at prepared with complete
  · have facts : submitted body = [] ∧ (deletionTimestamp applied).isSome = true := by
      simpa using complete
    unfold deletionTimestamp at facts ⊢
    rw [metadata] at facts
    exact ⟨facts.2, facts.1⟩
  · cases pure_eq_ok.mp prepared

theorem ObjectWrite.prepare_removes {change : ObjectWrite} {ns : Option String}
    (prepared : change.prepare api codec key name ns existing = .ok (.delete object prev)) :
    ∃ asked, change.ask api codec key name ns existing = .ok asked ∧
      (deletionTimestamp asked).isSome = true ∧ finalizersLeft asked = false := by
  have ⟨asked, obj, asks, finished, commit⟩ := prepare_ok prepared
  refine ⟨asked, asks, ?_⟩
  unfold persistOrFinalize at commit
  split_ifs at commit with finalized
  rw [← finish_deletion finished, ← finish_finalizers finished]
  simpa using finalized

end

/-- The run so far: what each request in flight has read is not overwritten in secret, those that
will remove the Namespace read it with its deletion complete, and every removal was proper. -/
structure NamespaceInvariant (key : String) (state : NamespaceState) : Prop where
  remembered : ∀ pending ∈ state.pending, state.store.Remembers key pending.entry
  complete : ∀ pending ∈ state.pending, ∀ object prev, pending.commit = .delete object prev →
    Removal.Proper ⟨pending.request, pending.entry.object⟩
  proper : ∀ removal ∈ state.removed, removal.Proper

namespace NamespaceState

variable (key name : String)

/-- No PUT, PATCH or status write asks for a terminating Namespace without a `metadata.finalizers`
entry, and no other write lands between the read of a request that removes it and the removal. -/
def careful (state : NamespaceState) : NamespaceAction → Bool
  | .begin api codec (.write change) =>
    match do
      let existing ← state.store.get key
      change.ask api codec key name none existing with
    | .ok asked => (deletionTimestamp asked).isNone || finalizersLeft asked
    | .error _ => true
  | .begin _ _ _ => true
  | .commit index =>
    match state.pending[index]? with
    | some ⟨_, _, entry, .delete _ _⟩ => state.store.modRevision key == entry.modRevision
    | _ => true

variable {key name}

variable {state after : NamespaceState} {request : NamespaceRequest} {codec : Patch.Codec}
  {api : Api}

/-- What a request prepares to remove, it read with its deletion complete. -/
theorem prepare_proper {entry : Entry}
    (safe : state.careful key name (.begin api codec request) = true)
    (read : state.store.get key = .ok existing) (found : state.store.entries key = some entry)
    (prepared : request.prepare api codec key name existing = .ok (some (.delete object prev))) :
    Removal.Proper ⟨request, entry.object⟩ := by
  have ⟨entry', here, injected⟩ := ObjectStore.get_ok read
  obtain rfl : entry' = entry := some.inj (here.symm.trans found)
  have frame := injectResourceVersion_within injected
  have deletion : deletionTimestamp existing = deletionTimestamp entry'.object := by
    unfold deletionTimestamp
    rw [frame.inside "deletionTimestamp" (by decide)]
  have finalizers : specFinalizers existing = specFinalizers entry'.object := by
    unfold specFinalizers
    rw [frame.outside "spec" (by decide)]
  cases request with
  | delete opts now =>
    have facts := terminateNamespace_removes prepared
    rw [deletion, finalizers] at facts
    exact facts
  | finalize body =>
    have facts := finalizeNamespace_removes prepared
    rw [deletion] at facts
    exact facts
  | write change =>
    have ⟨commit, changed, done⟩ := bind_eq_ok.mp prepared
    rw [some.inj (pure_eq_ok.mp done)] at changed
    have ⟨asked, asks, terminating, free⟩ := ObjectWrite.prepare_removes changed
    have both : (do
        let existing ← state.store.get key
        change.ask api codec key name none existing) = .ok asked :=
      bind_eq_ok.mpr ⟨existing, read, asks⟩
    simp only [careful, both, free, Bool.or_false] at safe
    simp [isNone_iff_eq_none.mp safe] at terminating

theorem begin_invariant (inv : NamespaceInvariant key state)
    (safe : state.careful key name (.begin api codec request) = true)
    (taken : state.step key name (.begin api codec request) = some after) :
    NamespaceInvariant key after := by
  have ⟨entry, found, taken⟩ := bind_eq_some_iff.mp taken
  have ⟨existing, read, taken⟩ := bind_eq_some_iff.mp taken
  have ⟨result, prepared, taken⟩ := bind_eq_some_iff.mp taken
  obtain ⟨commit, rfl, taken⟩ := bind_eq_some_iff.mp taken
  have reads : state.store.get key = .ok existing := toOption_eq_some.mp read
  have prepares : request.prepare api codec key name existing = .ok (some commit) :=
    toOption_eq_some.mp prepared
  cases taken
  refine ⟨?_, ?_, inv.proper⟩
  · exact forall_mem_concat inv.remembered (.of_read found)
  · refine forall_mem_concat inv.complete fun object prev removes => ?_
    exact prepare_proper safe reads found (prepares.trans (by rw [← removes]))

theorem commit_invariant {index : Nat} (inv : NamespaceInvariant key state)
    (safe : state.careful key name (.commit index) = true)
    (taken : state.step key name (.commit index) = some after) : NamespaceInvariant key after := by
  have ⟨pending, listed, taken⟩ := bind_eq_some_iff.mp taken
  have member : pending ∈ state.pending := mem_of_getElem? listed
  cases taken
  unfold land
  cases landed : pending.commit.land pending.rules state.store key with
  | error failure =>
    exact ⟨fun other kept => inv.remembered other (mem_of_mem_eraseIdx kept),
      fun other kept => inv.complete other (mem_of_mem_eraseIdx kept), inv.proper⟩
  | ok store =>
    refine ⟨fun other kept => ?_, fun other kept => inv.complete other (mem_of_mem_eraseIdx kept),
      ?_⟩
    · exact Commit.land_remembers landed (inv.remembered other (mem_of_mem_eraseIdx kept))
    · intro removal recorded
      rcases mem_append.mp recorded with before | new
      · exact inv.proper removal before
      · unfold recordRemoval at new
        split at new
        · rename_i entry present gone
          rw [mem_singleton.mp new]
          have ⟨object, prev, deletes⟩ := Commit.removes landed gone
          have unmoved : state.store.modRevision key = pending.entry.modRevision := by
            have ⟨request, rules, read, commit⟩ := pending
            obtain rfl : commit = .delete object prev := deletes
            simpa [careful, listed] using safe
          rw [(inv.remembered pending member).unchanged present unmoved]
          exact inv.complete pending member object prev deletes
        · cases new

end NamespaceState

/-- In every interleaving of careful requests, the Namespace is only removed in a version that is
being deleted and that no finalizer holds. -/
theorem namespace_outlives_finalizers (key name : String) (store : ObjectStore)
    (state : NamespaceState)
    (reached : Transition.Reaches (NamespaceState.step key name)
      (fun state action => state.careful key name action = true) ⟨store, [], []⟩ state) :
    ∀ removal ∈ state.removed, removal.Proper := by
  have inv : NamespaceInvariant key state := by
    apply reached.invariant
    · exact ⟨by simp, by simp, by simp⟩
    · intro before action after inv safe taken
      cases action with
      | begin api codec request => exact begin_invariant inv safe taken
      | commit index => exact commit_invariant inv safe taken
  exact inv.proper

/-- A Namespace held by the finalizer `kubernetes`, with the given `metadata` besides its name. -/
def team (metadata : List (String × Value)) : Value := .object [
  ("apiVersion", .string "v1"), ("kind", .string "Namespace"),
  ("metadata", .object (metadata ++ [("name", .string "team")])),
  ("spec", .object [("finalizers", .array [.string "kubernetes"])])]

def teamKey : String := "/registry/namespaces/team"

/-- The Namespace in the store, with no request in flight. -/
def teamState (metadata : List (String × Value)) : NamespaceState :=
  ⟨ObjectStore.empty.write teamKey (team metadata), [], []⟩

/-- A user with the given verb on `/api/v1/namespaces/team`. -/
def teamApi (verb : Verb) (subresource : Option String) : Api where
  request := some {
    user := ⟨"alice", ["system:authenticated"]⟩, verb := verb, group := "", version := "v1",
    resource := "namespaces", subresource := subresource, ns := none, name := some "team",
    dryRun := false, rbac := none }
  world := .quiet
  rules := settingsApi.rules

def deleteTeam : NamespaceAction :=
  .begin (teamApi .delete none) settingsCodec (.delete ⟨none, none, false⟩ "2026-01-01T00:00:00Z")

/-- A PUT of the Namespace as it is read, with the given `metadata`. -/
def putTeam (metadata : List (String × Value)) : NamespaceAction :=
  .begin (teamApi .update none) settingsCodec (.write (.put .builtIn (team metadata)))

def finalizeTeam : NamespaceAction :=
  .begin (teamApi .update (some "finalize")) settingsCodec
    (.finalize (.object [("spec", .object [("finalizers", .array [])])]))

/-- A deletion, a PUT that adds a finalizer meanwhile, and the namespace controller's
`/finalize`. -/
def finalizedDeletion : List NamespaceAction :=
  [deleteTeam, .commit 0, putTeam [deletionField, finalizerField], .commit 0, finalizeTeam,
    .commit 0]

theorem namespace_outlives_finalizers_team : ∃ state,
    Transition.Reaches (NamespaceState.step teamKey "team")
      (fun state action => state.careful teamKey "team" action = true) (teamState []) state ∧
    ∃ removal, state.removed = [removal] ∧ removal.Proper := by
  refine exists_of_run finalizedDeletion rfl fun reached => ⟨_, rfl, ?_⟩
  exact namespace_outlives_finalizers teamKey "team" _ _ reached _ (.head _)

/-- A PUT of a terminating Namespace, as the client reads it, removes it while the namespace
controller still holds it. -/
theorem put_removes_held_namespace : ∃ state,
    Transition.Reaches (NamespaceState.step teamKey "team") (fun _ _ => True) (teamState []) state ∧
    ∃ removal, state.removed = [removal] ∧
      specFinalizers removal.stored = [.string "kubernetes"] ∧ ¬ removal.Proper := by
  refine ⟨_, Reaches.start.run
    [deleteTeam, .commit 0, putTeam [deletionField], .commit 0] rfl, _, rfl, rfl, ?_⟩
  intro proper
  cases proper.2

end Rustkube
