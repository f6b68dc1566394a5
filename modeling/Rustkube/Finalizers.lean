import Rustkube.PutIdentity

namespace Rustkube

open Transition

/-- A version that the write removes has no finalizers, or the write itself was made to that version
and takes the last of them away. -/
def Landing.HonoursFinalizers (landing : Landing) : Prop :=
  ∀ entry, landing.before = some entry → landing.after = none →
    finalizersLeft entry.object = false ∨
      (∃ name ns change, landing.request = .write name ns change) ∧
        landing.attempt.read = some entry ∧ finalizersLeft landing.attempt.commit.object = false

namespace Traffic

variable (key : String)

/-- A DELETE that removes writes while the key is as it read it. So does a handler that decides
without a look at the finalizers, and there are none; one that does not read at all finds an object
without any. A PUT is pinned to the version it read. -/
def finalizersGuarded (traffic : Traffic) : TrafficAction → Bool
  | .commit index _ =>
    match traffic.calls[index]? with
    | some ⟨.write name ns change, .writing attempt⟩ =>
      change.guaranteed || traffic.pinned key name ns change attempt
    | some ⟨.create _ _, _⟩ => true
    | some ⟨.delete _, .writing attempt⟩ => traffic.unmoved key attempt
    | some ⟨.remove _, _⟩ => (traffic.store.entries key).all fun entry =>
      !finalizersLeft entry.object
    | some ⟨_, .writing ⟨api, codec, read, .delete object prevRevision, checks⟩⟩ =>
      traffic.unmoved key ⟨api, codec, read, .delete object prevRevision, checks⟩ &&
        read.all fun entry => !finalizersLeft entry.object
    | _ => true
  | _ => true

variable {key} {before : Traffic} {index : Nat} {attempt : Attempt} {after : ObjectStore}

theorem Lands.honours_write {name : String} {ns : Option String} {change : ObjectWrite}
    (lands : Lands key before index (.write name ns change) attempt after)
    (current : before.store.entries key = attempt.read) :
    Landing.HonoursFinalizers ⟨.write name ns change, attempt, before.store.entries key,
      after.entries key⟩ := by
  intro entry held gone
  have ⟨_, existing, _, _, prepared⟩ := lands.sound.write
  have ⟨asked, obj, asks, finished, isCommit⟩ := ObjectWrite.prepare_ok prepared
  refine .inr ⟨⟨name, ns, change, rfl⟩, current.symm.trans held, ?_⟩
  have landed := lands.landed
  rw [isCommit] at landed
  change before.store.entries key = some entry at held
  rw [persistOrFinalize_entries landed (by rw [held]; rfl)] at gone
  split_ifs at gone with finalized
  rw [isCommit, persistOrFinalize_object]
  simpa using (Bool.and_eq_true_iff.mp finalized).2

theorem Lands.honours_create {given : Creation} {request : CreateRequest}
    (lands : Lands key before index (.create given request) attempt after) :
    Landing.HonoursFinalizers ⟨.create given request, attempt, before.store.entries key,
      after.entries key⟩ := by
  intro entry held gone
  have ⟨object, prevRevision, isDelete⟩ := Commit.removes lands.landed gone
  have ⟨earlier, planned⟩ := lands.sound.origin
  have ⟨_, _, planned⟩ := bind_eq_ok.mp planned
  have ⟨_, _, planned⟩ := bind_eq_ok.mp planned
  have same := pure_eq_ok.mp planned
  rw [isDelete] at same
  split_ifs at same
  injection same with _ isCommit
  cases isCommit

end Traffic

/-- In every interleaving of guarded requests, no step removes a version that a finalizer holds. -/
theorem finalizers_honoured (key : String) (store : ObjectStore) (traffic : Traffic)
    (reached : Transition.Reaches (Traffic.step key)
      (fun traffic action => (traffic.int64 && traffic.finalizersGuarded key action) = true)
      (Traffic.start key store) traffic) :
    ∀ landing ∈ traffic.landed, landing.HonoursFinalizers := by
  refine Traffic.landings reached ?_
  intro before index inTime request attempt after permitted lands
  have ⟨bounded, guarded⟩ := Bool.and_eq_true_iff.mp permitted
  cases request with
  | write name ns change =>
    simp only [Traffic.finalizersGuarded, lands.called] at guarded
    exact lands.honours_write (lands.replaces bounded guarded)
  | create given request => exact lands.honours_create
  | delete deletion =>
    simp only [Traffic.finalizersGuarded, lands.called] at guarded
    intro entry held gone
    obtain ⟨read, existing, isRead, injected, removes, -⟩ := lands.sound.delete
    obtain rfl : read = entry :=
      Option.some.inj (isRead.symm.trans ((lands.unmoved guarded).symm.trans held))
    rw [finalizersLeft, ← (injectResourceVersion_within injected).inside "finalizers" (by decide)]
    exact .inl (Deletion.verdict_remove removes)
  | evict | terminate | finalize =>
    intro entry held gone
    have ⟨object, prevRevision, isDelete⟩ := Commit.removes lands.landed gone
    obtain ⟨api, codec, read, commit, checks⟩ := attempt
    obtain rfl : commit = .delete object prevRevision := isDelete
    simp only [Traffic.finalizersGuarded, lands.called, Bool.and_eq_true] at guarded
    obtain rfl : read = some entry := (lands.unmoved guarded.1).symm.trans held
    exact .inl (by simpa using guarded.2)
  | remove options =>
    intro entry held gone
    change before.store.entries key = some entry at held
    simp only [Traffic.finalizersGuarded, lands.called, held] at guarded
    exact .inl (by simpa using guarded)

def clearFinalizers : TrafficAction :=
  .arrive (.write "settings" (some "default") (.update none fun existing =>
    orPanic (existing.assignIn "metadata" "finalizers" (.array []))))

theorem finalizers_honoured_cleared : ∃ traffic marked cleared,
    Transition.Reaches (Traffic.step settingsKey)
      (fun traffic action => (traffic.int64 && traffic.finalizersGuarded settingsKey action) = true)
      (Traffic.start settingsKey (settingsStore [finalizerField])) traffic ∧
    traffic.landed = [marked, cleared] ∧ marked.after.isSome = true ∧ cleared.after = none ∧
    cleared.HonoursFinalizers := by
  simp only [exists_and_left]
  refine exists_of_run [deleteSettingsCall, prepareSettings 0, prepareSettings 0, .commit 0 true,
    clearFinalizers, prepareSettings 0, .commit 0 true] rfl fun reached => ⟨_, _, rfl, rfl, rfl, ?_⟩
  exact finalizers_honoured settingsKey _ _ reached _ (.tail _ (.head _))

def webKey : String := "/registry/pods/default/web"

/-- A pod that a finalizer holds. -/
def webStore : ObjectStore :=
  ObjectStore.empty.write webKey (.object [("kind", .string "Pod"),
    ("metadata", .object [finalizerField, ("name", .string "web")])])

def evictWeb : TrafficAction := .arrive (.evict ⟨.object [], [], [], fun _ _ => none⟩)

/-- `POST /api/v1/namespaces/default/pods/web/eviction` -/
def evictionApi : Api :=
  { settingsApi with request := some {
      user := ⟨"alice", ["system:authenticated"]⟩, verb := .create, group := "", version := "v1",
      resource := "pods", subresource := some "eviction", ns := some "default",
      name := some "web", dryRun := false, rbac := none } }

/-- An eviction removes a pod that a finalizer holds, and a DELETE an object that got its finalizer
after it was read. -/
theorem finalizers_passed_over :
    (∃ traffic landing, Transition.Reaches (Traffic.step webKey) (fun _ _ => True)
        (Traffic.start webKey webStore) traffic ∧ landing ∈ traffic.landed ∧
      ¬ landing.HonoursFinalizers) ∧
    ∃ traffic landing, Transition.Reaches (Traffic.step settingsKey) (fun _ _ => True)
        (Traffic.start settingsKey (settingsStore [])) traffic ∧ landing ∈ traffic.landed ∧
      ¬ landing.HonoursFinalizers := by
  have passes {landing : Landing} {entry : Entry} (held : landing.before = some entry)
      (gone : landing.after = none) (left : finalizersLeft entry.object = true)
      (noWrite : ∀ name ns change, landing.request ≠ .write name ns change) :
      ¬ landing.HonoursFinalizers := by
    intro honours
    rcases honours entry held gone with free | ⟨⟨name, ns, change, isWrite⟩, -⟩
    · rw [left] at free
      cases free
    · exact noWrite name ns change isWrite
  exact ⟨⟨_, _, Reaches.start.run
      [evictWeb, .prepare 0 evictionApi settingsCodec, .commit 0 true] rfl, .head _,
      passes rfl rfl rfl nofun⟩,
    _, _, Reaches.start.run [deleteSettingsCall, prepareSettings 0,
      putSettingsCall [finalizerField], prepareSettings 1, .commit 1 true, .commit 0 true] rfl,
    .tail _ (.head _), passes rfl rfl rfl nofun⟩

end Rustkube
