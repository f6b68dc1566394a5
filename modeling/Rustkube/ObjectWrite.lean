import Rustkube.Apply

namespace Rustkube

open Api ObjectStore Json Storage

/-- A write to a stored object that is not a DELETE. -/
inductive ObjectWrite where
  | put (strategy : Strategy) (body : Value)
  | patch (strategy : Strategy) (contentType : String) (params : Apply.Params) (body : Bytes)
  | putStatus (body : Value)
  | patchStatus (contentType : String) (body : Bytes)
  /-- The guaranteed updates of other handlers: a custom resource's status, `/scale`, `/resize`, an
  Event, the v1 view of an autoscaler. -/
  | update (condition : Option String) (mutate : Value → Except Failure Value)

variable {obj : Value} {store after : ObjectStore} {rules : KindRules} {key : String}

namespace ObjectWrite

variable (api : Api) (codec : Patch.Codec) (key name : String) (ns : Option String)

/-- What a guaranteed update among them does to the object it read; a PUT replaces it. -/
def mutation : ObjectWrite → Value → Except Failure Value
  | .put _ body, _ => pure body
  | .patch strategy contentType params body, existing =>
    Apply.patchObject api.rules codec strategy contentType params body existing
  | .putStatus body, existing => Rustkube.putStatus body existing
  | .patchStatus contentType body, existing => applyStatusPatch codec contentType body existing
  | .update _ mutate, existing => mutate existing

def precondition : ObjectWrite → Option String
  | .put _ _ => none
  | .patch _ contentType _ body => Patch.patchPrecondition codec contentType body
  | .putStatus body => statusPrecondition body
  | .patchStatus contentType body => Patch.patchPrecondition codec contentType body
  | .update condition _ => condition

/-- The handler of the write, on the object as it read it. -/
def prepare (write : ObjectWrite) (existing : Value) : Except Failure Commit :=
  match write with
  | .put strategy body => api.putObject strategy key name ns body existing
  | write => api.guaranteedUpdate key (write.precondition codec) (write.mutation api codec) existing

/-- The object the write shows the webhooks. -/
def shown (write : ObjectWrite) (existing : Value) : Except Failure Value :=
  match write with
  | .put strategy body => api.showPut strategy key name ns body existing
  | write => api.showUpdate key (write.mutation api codec) existing

/-- The object the write asks to store, as it comes out of the mutating webhooks. -/
def ask (write : ObjectWrite) (existing : Value) : Except Failure Value := do
  let shown ← write.shown api codec key name ns existing
  api.admitWrite .update shown (some existing)

/-- Whether the object of a PUT is finished as a built-in one. -/
def builtIn : ObjectWrite → Bool
  | .put strategy _ => strategy == .builtIn
  | _ => true

/-- Whether it is a read, a mutation of what was read, and a swap. A PUT is not. -/
def guaranteed : ObjectWrite → Bool
  | .put _ _ => false
  | _ => true

/-- What the server still sets on it before it is stored. -/
def finish (write : ObjectWrite) (existing asked : Value) : Except Failure Value :=
  match write with
  | .put strategy _ => api.sealPut strategy key name ns existing asked
  | _ => api.sealUpdate key existing asked

def perform (write : ObjectWrite) (store : ObjectStore) : Except Failure ObjectStore := do
  let existing ← store.get key
  let commit ← write.prepare api codec key name ns existing
  orFail ((commit.land api.rules store key).mapError ApiError.ofStore)

/-- The store after the write. One that is refused changes nothing. -/
def result (write : ObjectWrite) (store : ObjectStore) : ObjectStore :=
  match write.perform api codec key name ns store with
  | .ok after => after
  | .error _ => store

variable {api codec key name ns}

variable {write : ObjectWrite} {existing asked : Value} {commit : Commit} {field : String}

section

variable (prepared : write.prepare api codec key name ns existing = .ok commit)

include prepared

/-- An attempt of a guaranteed update stores or removes what its mutation made of the version it
read, if that is the one it is conditional on. -/
theorem prepare_guaranteed (guaranteed : write.guaranteed = true) :
    (∀ version ∈ write.precondition codec, version = versionOf existing) ∧
      ∃ asked obj, api.askUpdate key (write.mutation api codec) existing = .ok asked ∧
        api.sealUpdate key existing asked = .ok obj ∧ commit = persistOrFinalize obj := by
  have updated : api.guaranteedUpdate key (write.precondition codec) (write.mutation api codec)
      existing = .ok commit := by
    cases write with
    | put strategy body => cases guaranteed
    | _ => exact prepared
  exact guaranteedUpdate_ok updated

theorem prepare_ok :
    ∃ asked obj, write.ask api codec key name ns existing = .ok asked ∧
      write.finish api key name ns existing asked = .ok obj ∧ commit = persistOrFinalize obj := by
  cases write with
  | put strategy body =>
    have ⟨asked, first, rest⟩ := bind_eq_ok.mp prepared
    have ⟨obj, second, last⟩ := bind_eq_ok.mp rest
    exact ⟨asked, obj, first, second, (pure_eq_ok.mp last).symm⟩
  | patch | putStatus | patchStatus | update => exact (prepare_guaranteed prepared rfl).2

end

section

variable (finished : write.finish api key name ns existing asked = .ok obj)

include finished

theorem finish_metadata (declared : field ∈ Schema.OBJECT_META) (free : field ∉ SERVER_FIELDS) :
    obj["metadata"][field] = asked["metadata"][field] := by
  cases write with
  | put strategy body => exact sealPut_metadata finished declared free
  | patch | putStatus | patchStatus | update => exact (sealUpdate_within finished).inside field free

theorem finish_index (builtIn : write.builtIn = true) (outside : field ≠ "metadata")
    (notData : field ≠ "data") (notText : field ≠ "stringData") : obj[field] = asked[field] := by
  cases write with
  | put strategy body =>
    obtain rfl : strategy = .builtIn := by simpa [ObjectWrite.builtIn] using builtIn
    exact sealPut_index finished outside notData notText
  | patch | putStatus | patchStatus | update => exact (sealUpdate_within finished).outside _ outside

end

theorem perform_ok (performed : write.perform api codec key name ns store = .ok after) :
    ∃ existing commit, store.get key = .ok existing ∧
      write.prepare api codec key name ns existing = .ok commit ∧
      commit.land api.rules store key = .ok after := by
  have ⟨existing, read, rest⟩ := bind_eq_ok.mp performed
  have ⟨commit, prepared, landed⟩ := bind_eq_ok.mp rest
  refine ⟨existing, commit, read, prepared, ?_⟩
  cases landing : commit.land api.rules store key with
  | ok stored => simpa [landing, Except.mapError, orFail] using landed
  | error error => simp [landing, Except.mapError, orFail] at landed

end ObjectWrite

section

variable (landed : (persistOrFinalize obj).land rules store key = .ok after)

include landed

theorem persistOrFinalize_land (present : (store.entries key).isSome = true) :
    after =
      if (deletionTimestamp obj).isSome && !finalizersLeft obj then store.erase key
      else store.write key (storedForm rules.canonical (metricResource key) obj) := by
  unfold persistOrFinalize at landed
  split_ifs at landed ⊢ with finalized
  · have erased := (delete_ok landed).2
    rwa [if_pos present] at erased
  · exact (put_ok landed).2

theorem persistOrFinalize_entries (present : (store.entries key).isSome = true) :
    after.entries key =
      if (deletionTimestamp obj).isSome && !finalizersLeft obj then none
      else some ⟨storedForm rules.canonical (metricResource key) obj, store.revision + 1⟩ := by
  rw [persistOrFinalize_land landed present]
  split_ifs
  · exact erase_entries_self ..
  · exact write_entries_self ..

end

section

variable {api : Api} {key name : String} {ns : Option String} {write : ObjectWrite}
  {existing asked obj : Value}

variable (finished : write.finish api key name ns existing asked = .ok obj)

include finished

theorem ObjectWrite.finish_deletion : deletionTimestamp obj = deletionTimestamp asked := by
  unfold deletionTimestamp
  rw [finish_metadata finished (by decide) (by decide)]

theorem ObjectWrite.finish_finalizers : finalizersLeft obj = finalizersLeft asked := by
  unfold finalizersLeft
  rw [finish_metadata finished (by decide) (by decide)]

end

/-- A ConfigMap with the given `metadata` besides its name. -/
def settings (metadata : List (String × Value)) : Value := .object [
  ("apiVersion", .string "v1"), ("data", .object [("mode", .string "fast")]),
  ("kind", .string "ConfigMap"),
  ("metadata", .object (metadata ++ [("name", .string "settings"),
    ("namespace", .string "default")]))]

def settingsKey : String := "/registry/configmaps/default/settings"

def settingsStore (metadata : List (String × Value)) : ObjectStore :=
  ObjectStore.empty.write settingsKey (settings metadata)

/-- `PUT /api/v1/namespaces/default/configmaps/settings`, by a user who may only update. -/
def settingsApi : Api where
  request := some {
    user := ⟨"alice", ["system:authenticated"]⟩, verb := .update, group := "", version := "v1",
    resource := "configmaps", subresource := none, ns := some "default",
    name := some "settings", dryRun := false, rbac := none }
  world := .quiet
  rules := {
    canonical := fun | .number value => toString value | _ => ""
    encode := id
    text := fun value => value.asStr?.getD ""
    check := fun _ _ _ => .ok ()
    servicePlan := fun _ body => .ok body["spec"]
    schemaErrors := fun _ _ _ => none }

def settingsCodec : Patch.Codec where
  parseJson _ := .error "expected value at line 1 column 1"
  parseYaml _ := .error "did not find expected node content"
  decodes _ := .ok ()
  patch _ target := .ok target
  excerpt _ := ""

def deletionField : String × Value := ("deletionTimestamp", .string "2026-01-01T00:00:00Z")

def finalizerField : String × Value := ("finalizers", .array [.string "example.com/hold"])

end Rustkube
