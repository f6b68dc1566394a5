import Rustkube.PutIdentity

namespace Rustkube

open ObjectStore Transition Json Value

/-- The version is the one that the preconditions name. -/
structure DeleteOptions.Names (options : DeleteOptions) (entry : Entry) : Prop where
  uid : ∀ uid ∈ options.preconditionUid, uidOf entry.object = some uid
  version : ∀ version ∈ options.preconditionRv, version = toString entry.modRevision

instance (options : DeleteOptions) (entry : Entry) : Decidable (options.Names entry) :=
  decidable_of_iff (options.preconditionUid.all (fun uid => uidOf entry.object == some uid) = true ∧
      options.preconditionRv.all (fun version => version == toString entry.modRevision) = true) (by
    simp only [Option.all_eq_true, beq_iff_eq]
    exact ⟨fun ⟨uid, version⟩ => ⟨uid, version⟩, fun names => ⟨names.uid, names.version⟩⟩)

/-- The options of a DELETE. -/
def KeyRequest.options : KeyRequest → Option DeleteOptions
  | .delete deletion => some deletion.options
  | .terminate options _ => some options
  | .remove options => some options
  | _ => none

/-- The options of the DELETE that the write belongs to, its removal or its mark. -/
def Landing.options (landing : Landing) : Option DeleteOptions :=
  landing.request.options.or (landing.attempt.checks.map Prod.fst)

/-- A DELETE removes or marks only the version that its preconditions name. -/
def Landing.HonoursPreconditions (landing : Landing) : Prop :=
  ∀ options ∈ landing.options, ∀ entry ∈ landing.before, options.Names entry

/-- A removal under a precondition writes while the key is as it was read, and that of a handler
that does not read finds the version that is named. With a precondition on the uid alone, a mark is
applied to the object that was checked and not to a successor of it. -/
def Traffic.preconditionsGuarded (key : String) (traffic : Traffic) : TrafficAction → Bool
  | .commit index _ =>
    match traffic.calls[index]? with
    | some ⟨.remove options, _⟩ => (traffic.store.entries key).all fun entry => options.Names entry
    | some ⟨.write _ _ _, .writing attempt⟩ => attempt.checks.all fun (options, first) =>
        options.preconditionUid.isNone || options.preconditionRv.isSome ||
          attempt.read.all fun entry => uidOf entry.object == uidOf first.object
    | some ⟨request, .writing ⟨api, codec, read, .delete removed none, checks⟩⟩ =>
      (request.options.all fun options =>
        options.preconditionUid.isNone && options.preconditionRv.isNone) ||
        traffic.unmoved key ⟨api, codec, read, .delete removed none, checks⟩
    | _ => true
  | _ => true

section

variable {key : String} {options : DeleteOptions} {store : ObjectStore} {entry : Entry}
  {existing : Value}

theorem checkPreconditions_names
    (injected : Storage.injectResourceVersion entry.object entry.modRevision = some existing)
    (checked : checkPreconditions existing options = .ok ()) : options.Names entry := by
  unfold checkPreconditions at checked
  split_ifs at checked with uidWrong versionWrong
  · simp at checked
  · simp at checked
  · constructor
    · intro uid given
      rw [← injectResourceVersion_uid injected]
      simpa [uidOf, Option.mem_def.mp given] using uidWrong
    · intro version given
      rw [Option.mem_def.mp given, injectResourceVersion_version injected] at versionWrong
      have same : toString entry.modRevision = version := by
        simpa [asStr?] using versionWrong
      exact same.symm

theorem markTerminating_version {ns : Value} {now : String}
    (marked : markTerminating now existing = some ns) :
    ns["metadata"]["resourceVersion"] = existing["metadata"]["resourceVersion"] := by
  have ⟨opened, first, marked⟩ := Option.bind_eq_some_iff.mp marked
  have ⟨stamped, second, marked⟩ := Option.bind_eq_some_iff.mp marked
  have ⟨status, third, marked⟩ := Option.bind_eq_some_iff.mp marked
  have ⟨phase, fourth, marked⟩ := Option.bind_eq_some_iff.mp marked
  have ⟨spec, fifth, marked⟩ := Option.bind_eq_some_iff.mp marked
  have kept := (openMetadata_within first).trans (.of_assignIn second)
  rw [assignIn_of_ne marked (by decide), openField_metadata (by decide) fifth,
    assignIn_of_ne fourth (by decide), openField_metadata (by decide) third]
  exact kept.inside "resourceVersion" (by decide)

/-- `terminate_namespace` has checked what it read, and removes it or writes on the condition that
it is there. -/
theorem terminateNamespace_ok {api : Api} {now : String} {commit : Commit}
    (injected : Storage.injectResourceVersion entry.object entry.modRevision = some existing)
    (bounded : entry.modRevision < 2 ^ 64)
    (terminated : terminateNamespace api options now existing = .ok (some commit)) :
    options.Names entry ∧
      (commit = .delete existing none ∨ commit.prevRevision = some entry.modRevision) := by
  have ⟨_, checked, terminated⟩ := bind_eq_ok.mp terminated
  have ⟨_, _, terminated⟩ := bind_eq_ok.mp terminated
  refine ⟨checkPreconditions_names injected checked, ?_⟩
  split_ifs at terminated with dry complete
  · cases pure_eq_ok.mp terminated
  · cases pure_eq_ok.mp terminated
    exact .inl rfl
  · have ⟨ns, marked, done⟩ := bind_eq_ok.mp terminated
    cases pure_eq_ok.mp done
    refine .inr ?_
    rw [Commit.prevRevision, prevRevision, markTerminating_version (orPanic_eq_ok.mp marked),
      injectResourceVersion_version injected]
    exact parseU64Text_toString bounded

/-- The version that a mark reads anew is the one that the preconditions name: with one on the
version because that is checked again, and a version is read only once under its key. -/
theorem DeleteOptions.Names.again {first : Entry} (names : options.Names first)
    (known : Known key store first) (found : store.entries key = some entry)
    (sameVersion : ∀ version ∈ options.preconditionRv, version = toString entry.modRevision)
    (undisturbed : options.preconditionUid.isNone = true ∨ options.preconditionRv.isSome = true ∨
      uidOf entry.object = uidOf first.object) : options.Names entry := by
  refine ⟨fun uid given => ?_, sameVersion⟩
  rcases undisturbed with none | some | same
  · rw [Option.mem_def.mp given] at none
    cases none
  · have ⟨version, named⟩ := Option.isSome_iff_exists.mp some
    have texts : toString entry.modRevision = toString first.modRevision := by
      rw [← sameVersion version named, ← names.version version named]
    rw [(known.remembered.current key entry found (Text.decimal_injective texts)).2]
    exact names.uid uid given
  · rw [same]
    exact names.uid uid given

end

namespace Traffic

variable {key : String} {before : Traffic} {index : Nat} {inTime : Bool} {attempt : Attempt}
  {after : ObjectStore} {options : DeleteOptions} {entry : Entry}

/-- A removal under preconditions that were checked on what was read. -/
theorem Lands.removal_names {request : KeyRequest} {object : Value}
    (lands : Lands key before index request attempt after)
    (isOptions : request.options = some options)
    (reads : ∀ other, request ≠ .remove other)
    (guarded : before.preconditionsGuarded key (.commit index inTime) = true)
    (removes : attempt.commit = .delete object none)
    (checked : ∀ entry ∈ attempt.read, options.Names entry)
    (held : before.store.entries key = some entry) : options.Names entry := by
  obtain ⟨api, codec, read, commit, checks⟩ := attempt
  obtain rfl : commit = .delete object none := removes
  have condition : (options.preconditionUid = none ∧ options.preconditionRv = none) ∨
      before.unmoved key ⟨api, codec, read, .delete object none, checks⟩ = true := by
    cases request with
    | delete | terminate =>
      cases isOptions
      simpa [preconditionsGuarded, lands.called, KeyRequest.options] using guarded
    | remove other => exact absurd rfl (reads other)
    | write | create | evict | finalize => cases isOptions
  rcases condition with ⟨noUid, noVersion⟩ | still
  · exact ⟨by simp [noUid], by simp [noVersion]⟩
  · exact checked entry ((lands.unmoved still).symm.trans held)

/-- The mark of a DELETE is made to a version that its preconditions name. -/
theorem Lands.mark_names {name : String} {ns : Option String} {change : ObjectWrite} {first : Entry}
    (lands : Lands key before index (.write name ns change) attempt after)
    (bounded : before.int64 = true)
    (guarded : before.preconditionsGuarded key (.commit index inTime) = true)
    (checks : attempt.checks = some (options, first))
    (held : before.store.entries key = some entry) : options.Names entry := by
  have passed := lands.sound.checks _ checks
  obtain ⟨name, ns, mutate, isMark⟩ := passed.marks
  obtain ⟨rfl, rfl, rfl⟩ := KeyRequest.write.inj isMark
  have isRead : attempt.read = some entry := (lands.guaranteed bounded rfl).symm.trans held
  obtain ⟨existing, injected, checked⟩ := passed.passed
  refine (checkPreconditions_names injected checked).again passed.known held ?_ ?_
  · have ⟨read, fresh, isEntry, reads, prepared⟩ := lands.sound.write
    cases isEntry.symm.trans isRead
    intro version given
    rw [(ObjectWrite.prepare_guaranteed prepared rfl).1 version given, Api.versionOf,
      injectResourceVersion_version reads]
    rfl
  · simpa [preconditionsGuarded, lands.called, checks, isRead, or_assoc] using guarded

end Traffic

/-- In every interleaving of guarded requests and other writers, a DELETE removes or marks only the
version that its preconditions name. -/
theorem delete_preconditions_hold (key : String) (store : ObjectStore) (traffic : Traffic)
    (reached : Transition.Reaches (Traffic.step key)
      (fun traffic action => (traffic.int64 && traffic.preconditionsGuarded key action) = true)
      (Traffic.start key store) traffic) :
    ∀ landing ∈ traffic.landed, landing.HonoursPreconditions := by
  refine Traffic.landings reached ?_
  intro before index inTime request attempt after permitted lands options isOptions entry held
  have ⟨bounded, guarded⟩ := Bool.and_eq_true_iff.mp permitted
  -- a write that is no DELETE of its own has options only as the mark of one
  have mark (other : request.options = none) : options.Names entry := by
    have ⟨⟨_, first⟩, checks, isFirst⟩ : ∃ checks, attempt.checks = some checks ∧
        checks.1 = options := by
      simpa [Landing.options, other] using isOptions
    cases isFirst
    obtain ⟨name, ns, mutate, rfl⟩ := (lands.sound.checks _ checks).marks
    exact lands.mark_names bounded guarded checks held
  cases request with
  | write | create | evict | finalize => exact mark rfl
  | delete deletion =>
    cases isOptions
    have ⟨read, existing, isRead, injected, judged, removes⟩ := lands.sound.delete
    have ⟨_, checked, _⟩ := bind_eq_ok.mp judged
    refine lands.removal_names rfl (by simp) guarded removes (fun other member => ?_) held
    cases isRead.symm.trans member
    exact checkPreconditions_names injected checked
  | terminate options now =>
    cases isOptions
    obtain ⟨-, read, existing, isRead, injected, terminated⟩ :=
      lands.sound.namespaced (terminateNamespace attempt.api options now) fun _ => rfl
    have past := (lands.sound.known read isRead).remembered.past
    have small : read.modRevision < 2 ^ 64 := by
      have := of_decide_eq_true bounded
      omega
    obtain ⟨names, removes | condition⟩ := terminateNamespace_ok injected small terminated
    · refine lands.removal_names rfl (by simp) guarded removes (fun other member => ?_) held
      cases isRead.symm.trans member
      exact names
    · cases (lands.conditional isRead condition).symm.trans held
      exact names
  | remove options =>
    cases isOptions
    change before.store.entries key = some entry at held
    simpa [Traffic.preconditionsGuarded, lands.called, held] using guarded

/-- A DELETE of the ConfigMap under preconditions. -/
def deleteSettings (uid version : Option String) : TrafficAction :=
  .arrive (.delete ⟨"settings", some "default", ⟨uid, version, false⟩, none, none,
    "2026-01-01T00:00:00Z"⟩)

/-- Another writer removes the object and creates its name again. -/
def replaceSettings (metadata : List (String × Value)) : List TrafficAction :=
  [.foreign settingsKey (.delete none),
    .foreign settingsKey (.put (settings (uidField "second" :: metadata)) (some 0))]

/-- A mark that loses its swap to a controller, and is applied again. -/
theorem delete_preconditions_hold_marked : ∃ traffic landing,
    Transition.Reaches (Traffic.step settingsKey)
      (fun traffic action => (traffic.int64 && traffic.preconditionsGuarded settingsKey action) =
        true)
      (Traffic.start settingsKey (settingsStore [finalizerField, uidField "first"])) traffic ∧
    landing ∈ traffic.landed ∧ landing.before.map (·.modRevision) = some 2 ∧
    landing.options.map (·.preconditionUid) = some (some "first") ∧
    landing.HonoursPreconditions := by
  simp only [exists_and_left]
  refine exists_of_run [deleteSettings (some "first") none, prepareSettings 0, prepareSettings 0,
    .foreign settingsKey (.put (settings [finalizerField, uidField "first"]) (some 1)),
    .commit 0 true, prepareSettings 0, .commit 0 true] rfl
    fun reached => ⟨_, .head _, rfl, rfl, ?_⟩
  exact delete_preconditions_hold settingsKey _ _ reached _ (.head _)

/-- A run in which a DELETE under preconditions lands on a version that they do not name, and leaves
the key with something that passes a test. -/
def Traffic.Misses (uid version : Option String) (start : ObjectStore)
    (test : Option Entry → Bool) : Prop :=
  ∃ traffic landing, Transition.Reaches (Traffic.step settingsKey) (fun _ _ => True)
      (Traffic.start settingsKey start) traffic ∧
    landing ∈ traffic.landed ∧ landing.options = some ⟨uid, version, false⟩ ∧
    ¬ landing.HonoursPreconditions ∧ test landing.after = true

theorem Traffic.misses_of {uid version : Option String} {start : ObjectStore}
    {test : Option Entry → Bool} (actions : List TrafficAction)
    (ran : (Transition.run (Traffic.step settingsKey) (fun _ _ => True)
      (Traffic.start settingsKey start) actions).any (fun traffic =>
        traffic.landed.any fun landing => test landing.after &&
          (decide (landing.options = some ⟨uid, version, false⟩) && landing.before.any fun entry =>
            decide (¬ DeleteOptions.Names ⟨uid, version, false⟩ entry))) = true) :
    Misses uid version start test := by
  have ⟨traffic, reached, passed⟩ := Transition.exists_reaches _ ran
  have ⟨landing, member, passed⟩ := List.any_eq_true.mp passed
  simp only [Bool.and_eq_true, decide_eq_true_eq, Option.any_eq_true] at passed
  have ⟨tested, isOptions, entry, held, unnamed⟩ := passed
  exact ⟨traffic, landing, reached, member, isOptions,
    fun honours => unnamed (honours _ isOptions entry held), tested⟩

/-- A name that is deleted and created again between the check and the write: the new object is
removed, or marked, by a DELETE of the old one. A change of the object passes by a precondition on
its version in the same way. -/
theorem delete_preconditions_missed :
    Traffic.Misses (some "first") none (settingsStore [uidField "first"]) Option.isNone ∧
    Traffic.Misses (some "first") none (settingsStore [finalizerField, uidField "first"])
      (fun after => after.any fun entry =>
        (deletionTimestamp entry.object).isSome && uidOf entry.object == some "second") ∧
    Traffic.Misses none (some "1") (settingsStore [uidField "first"]) Option.isNone := by
  refine ⟨Traffic.misses_of (deleteSettings (some "first") none :: prepareSettings 0 ::
      replaceSettings [] ++ [.commit 0 true]) (by decide +kernel),
    Traffic.misses_of (deleteSettings (some "first") none :: prepareSettings 0 ::
      replaceSettings [finalizerField] ++ [prepareSettings 0, .commit 0 true]) (by decide +kernel),
    Traffic.misses_of [deleteSettings none (some "1"), prepareSettings 0,
      .foreign settingsKey (.put (settings [uidField "first"]) none), .commit 0 true]
      (by decide +kernel)⟩

end Rustkube
