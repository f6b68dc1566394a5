import Rustkube.PutIdentity

namespace Rustkube

open KindRules List Option Text Traffic Transition Json Value ObjectWrite

variable {field : String}

section

def isImmutable (obj : Value) : Bool := obj["immutable"].asBool? == some true

/-- The fields that an immutable ConfigMap or Secret keeps. -/
def dataFields (key : String) : List String :=
  if Text.startsWith key "/registry/secrets/" then ["data", "stringData"]
  else ["data", "binaryData"]

/-- The key of a ConfigMap or of a Secret. -/
def DataKey (key : String) : Prop :=
  Text.startsWith key "/registry/configmaps/" = true ∨ Text.startsWith key "/registry/secrets/" =
    true

/-- `new` is immutable and has the data of `old`. -/
def KeepsData (key : String) (old new : Value) : Prop :=
  isImmutable new = true ∧ ∀ field ∈ dataFields key, sameData old new field = true

variable {key : String}

theorem dataFields_outside (member : field ∈ dataFields key) : field ≠ "metadata" := by
  rintro rfl
  unfold dataFields at member
  split_ifs at member <;> simp at member

variable {new old after : Value}

theorem sameData_iff :
    sameData old new field = true ↔ old[field] = new[field] ∨
      (old[field] = .null ∨ old[field] = .object []) ∧
        (new[field] = .null ∨ new[field] = .object []) := by
  have null (value : Value) : value.isNull = true ↔ value = .null := by
    cases value <;> simp [isNull]
  simp [sameData, null]

theorem KeepsData.trans {first second third : Value}
    (left : KeepsData key first second) (right : KeepsData key second third) :
    KeepsData key first third := by
  refine ⟨right.1, fun field member => ?_⟩
  have one := left.2 field member
  have two := right.2 field member
  rw [sameData_iff] at one two ⊢
  rcases one with same | ⟨empty, emptied⟩
  · rwa [same]
  · exact .inr ⟨empty, two.elim (fun same => same ▸ emptied) (·.2)⟩

theorem KeepsData.congr {before : Value} (kept : KeepsData key old new)
    (oldSame : ∀ field ∈ dataFields key, before[field] = old[field])
    (immutable : after["immutable"] = new["immutable"])
    (newSame : ∀ field ∈ dataFields key, after[field] = new[field]) :
    KeepsData key before after := by
  refine ⟨?_, fun field member => ?_⟩
  · unfold isImmutable
    rw [immutable]
    exact kept.1
  · have same := kept.2 field member
    rw [sameData_iff] at same ⊢
    rwa [oldSame field member, newSame field member]

theorem checkImmutable_ok (dataKey : DataKey key)
    (checked : checkImmutable key old new = .ok ()) (immutable : isImmutable old = true) :
    KeepsData key old new := by
  have isTrue : old["immutable"].asBool? = some true := by simpa [isImmutable] using immutable
  have classes : startsWith key "/registry/priorityclasses/" = false := by
    rcases dataKey with starts | starts <;>
      exact not_startsWith starts (by decide) (by decide)
  unfold checkImmutable at checked
  rw [classes, if_neg Bool.false_ne_true] at checked
  unfold KeepsData dataFields
  rcases dataKey with starts | starts
  on_goal 1 =>
    have notSecret : startsWith key "/registry/secrets/" = false :=
      not_startsWith starts (by decide) (by decide)
    rw [if_pos starts] at checked
    rw [notSecret, if_neg Bool.false_ne_true]
  on_goal 2 =>
    have notConfig : startsWith key "/registry/configmaps/" = false :=
      not_startsWith starts (by decide) (by decide)
    rw [notConfig, if_neg Bool.false_ne_true, if_pos starts] at checked
    rw [if_pos starts]
  -- The two kinds have one rule, for their own fields.
  all_goals
    dsimp only at checked
    rw [if_neg (by simpa using isTrue)] at checked
    split_ifs at checked with mutable changed
    · simp at checked
    · simp at checked
    · exact ⟨by simpa [isImmutable] using mutable, by simpa using changed⟩

end

variable {change : ObjectWrite}

section

variable {rules : KindRules} {key : String}

theorem DataKey.resource (dataKey : DataKey key) :
    Quantity.QUANTITY_RESOURCES.contains (metricResource key) = false := by
  rcases dataKey with starts | starts
  · rw [metricResource_startsWith starts (by decide : _ = "/registry/" ++ "configmaps" ++ "/")
      (by decide) (by decide) (by decide)]
    decide
  · rw [metricResource_startsWith starts (by decide : _ = "/registry/" ++ "secrets" ++ "/")
      (by decide) (by decide) (by decide)]
    decide

theorem DataKey.numbersToStrings (dataKey : DataKey key) (canonical : Value → String)
    (obj : Value) : Quantity.numbersToStrings canonical (metricResource key) obj = obj :=
  if_neg (by rw [dataKey.resource]; decide)

theorem DataKey.not_namespace (dataKey : DataKey key) :
    startsWith key "/registry/namespaces/" = false := by
  rcases dataKey with starts | starts <;>
    exact not_startsWith starts (by decide) (by decide)

theorem foldSecret_stringData (secret : startsWith key "/registry/secrets/" = true)
    (obj : Value) : (rules.foldSecret key obj)["stringData"] = .null := by
  unfold foldSecret
  rw [if_pos secret]
  unfold foldStringData
  cases found : obj.get? "stringData" with
  | none => rw [index_eq, found]; rfl
  | some stringData =>
    cases stringData with
    | object entries => rw [index_insert_of_ne (by decide), index_remove_self]
    | _ => exact index_remove_self

variable {existing shown : Value}

theorem builtinUpdate_data {subresource : Option String} {body : Value} (dataKey : DataKey key)
    (built : rules.builtinUpdate subresource key existing body = .ok shown) :
    checkImmutable key existing shown = .ok () ∧
      (startsWith key "/registry/secrets/" = true → shown["stringData"] = .null) := by
  have services : startsWith key "/registry/services/" = false := by
    rcases dataKey with starts | starts <;>
      exact not_startsWith starts (by decide) (by decide)
  have ⟨counted, first, rest⟩ := bind_eq_ok.mp built
  have ⟨kept, second, rest⟩ := bind_eq_ok.mp rest
  have ⟨_, checked, rest⟩ := bind_eq_ok.mp rest
  have ⟨_, _, last⟩ := bind_eq_ok.mp rest
  have unplanned : kept = shown := by simpa [planService, services] using last
  have unheld : counted = kept := by
    simpa [keepFinalizers, dataKey.not_namespace] using orPanic_eq_ok.mp second
  rw [dataKey.numbersToStrings] at first
  refine ⟨by rw [← unplanned]; exact checked, fun secret => ?_⟩
  rw [← unplanned, ← unheld,
    (Generation.onUpdate_within (orPanic_eq_ok.mp first)).outside "stringData" (by decide),
    foldSecret_stringData secret]

variable {api : Api} {codec : Patch.Codec} {name : String} {ns : Option String}

theorem ObjectWrite.shown_data
    (dataKey : DataKey key) (shows : change.shown api codec key name ns existing = .ok shown) :
    (isImmutable existing = true → KeepsData key existing shown) ∧
      (startsWith key "/registry/secrets/" = true → shown["stringData"] = .null) := by
  suffices checked : ∃ built subresource body,
      api.rules.builtinUpdate subresource key existing body = .ok built ∧
        ∀ field, field ≠ "metadata" → shown[field] = built[field] by
    have ⟨built, subresource, body, builtin, frame⟩ := checked
    have ⟨checked, folded⟩ := builtinUpdate_data dataKey builtin
    refine ⟨fun immutable => ?_, fun secret => ?_⟩
    · exact (checkImmutable_ok dataKey checked immutable).congr (fun _ _ => rfl)
        (frame "immutable" (by decide)) fun field member => frame field (dataFields_outside member)
    · rw [frame "stringData" (by decide), folded secret]
  cases change with
  | put strategy body =>
    change api.showPut strategy key name ns body existing = .ok shown at shows
    unfold Api.showPut at shows
    split_ifs at shows with shape
    · simp at shows
    · have ⟨_, _, rest⟩ := bind_eq_ok.mp shows
      have ⟨_, _, rest⟩ := bind_eq_ok.mp rest
      have ⟨_, _, rest⟩ := bind_eq_ok.mp rest
      have ⟨_, _, builtin⟩ := bind_eq_ok.mp rest
      exact ⟨_, _, _, builtin, fun _ _ => rfl⟩
  | patch | putStatus | patchStatus | update =>
    have ⟨mutated, _, rest⟩ := bind_eq_ok.mp shows
    split_ifs at rest with shape
    · simp at rest
    · have ⟨built, builtin, last⟩ := bind_eq_ok.mp rest
      exact ⟨_, _, _, builtin, (keepServerFields_spec (orPanic_eq_ok.mp last)).1.outside⟩

theorem ObjectWrite.finish_data {asked obj : Value} (builtIn : change.builtIn = true)
    (folded : startsWith key "/registry/secrets/" = true → asked["stringData"] = .null)
    (finished : change.finish api key name ns existing asked = .ok obj)
    (outside : field ≠ "metadata") : obj[field] = asked[field] := by
  cases change with
  | put strategy body =>
    obtain rfl : strategy = .builtIn := by simpa [ObjectWrite.builtIn] using builtIn
    obtain ⟨kept, first, rest⟩ := bind_eq_ok.mp finished
    obtain ⟨updated, second, rest⟩ := bind_eq_ok.mp rest
    obtain ⟨counted, third, last⟩ := bind_eq_ok.mp rest
    have frame (field : String) (outside : field ≠ "metadata") : counted[field] = asked[field] := by
      rw [(Generation.onUpdate_within (orPanic_eq_ok.mp third)).outside field outside,
        ← pure_eq_ok.mp second,
        (keepServerFields_spec (orPanic_eq_ok.mp first)).1.outside field outside]
    rw [← pure_eq_ok.mp last, foldSecret_unset _ _ field, frame field outside]
    intro secret
    rw [frame "stringData" (by decide), folded secret]
  | patch | putStatus | patchStatus | update =>
    exact (Api.sealUpdate_within finished).outside _ outside

/-- The webhooks give back the data and the mark that they were shown. -/
def leavesData (key : String) (shown asked : Value) : Bool :=
  asked["immutable"] == shown["immutable"] &&
    (dataFields key).all fun field => asked[field] == shown[field]

/-- A write to an immutable object whose data the webhooks leave alone keeps it. -/
theorem ObjectWrite.keepsData {entry : Entry} {asked obj : Value} (dataKey : DataKey key)
    (injected : Storage.injectResourceVersion entry.object entry.modRevision = some existing)
    (builtIn : change.builtIn = true)
    (shows : change.shown api codec key name ns existing = .ok shown)
    (left : leavesData key shown asked = true)
    (finished : change.finish api key name ns existing asked = .ok obj)
    (immutable : isImmutable entry.object = true) (canonical : Value → String) :
    KeepsData key entry.object (storedForm canonical (metricResource key) obj) := by
  have read := (injectResourceVersion_within injected).outside
  have sameMark : isImmutable existing = true := by
    unfold isImmutable
    rw [read "immutable" (by decide)]
    exact immutable
  have ⟨kept, folded⟩ := shown_data dataKey shows
  simp only [leavesData, Bool.and_eq_true, beq_iff_eq, List.all_eq_true] at left
  have askedFolded : startsWith key "/registry/secrets/" = true → asked["stringData"] = .null := by
    intro secret
    rw [left.2 "stringData" (by simp [dataFields, secret]), folded secret]
  have stored (field : String) (outside : field ≠ "metadata") :
      (storedForm canonical (metricResource key) obj)[field] = asked[field] := by
    rw [← finish_data builtIn askedFolded finished outside, storedForm, dataKey.numbersToStrings]
    exact (Value.Within.of_removeIn obj "metadata" "resourceVersion").outside field outside
  refine (kept sameMark).congr (fun field member => ?_) ?_ fun field member => ?_
  · exact (read field (dataFields_outside member)).symm
  · rw [stored "immutable" (by decide), left.1]
  · rw [stored field (dataFields_outside member), left.2 field member]

end

/-- Where the earlier version is immutable and the later one is of the same object, the later one is
immutable too and has the data of the earlier one. -/
def DataKept (key : String) (earlier later : Entry) : Prop :=
  ∀ uid, uidOf earlier.object = some uid → uidOf later.object = some uid →
    isImmutable earlier.object = true → KeepsData key earlier.object later.object

/-- Whether the webhooks leave the data of a write alone. -/
def Attempt.leavesData (key name : String) (ns : Option String) (change : ObjectWrite)
    (attempt : Attempt) : Bool :=
  let left : Option Bool := do
    let entry ← attempt.read
    let existing ← Storage.injectResourceVersion entry.object entry.modRevision
    let shown ← (change.shown attempt.api attempt.codec key name ns existing).toOption
    let asked ← (attempt.api.admitWrite .update shown (some existing)).toOption
    pure (Rustkube.leavesData key shown asked)
  left.getD true

namespace Traffic

variable (key : String)

/-- Every write is a request on a ConfigMap or Secret with a uid, whose data the webhooks leave
alone; a PUT is pinned to the version it read; and an object is created under a uid that no version
of the key has had. -/
def dataGuarded (traffic : Traffic) : TrafficAction → Bool
  | .commit index _ =>
    match traffic.calls[index]? with
    | some ⟨.write name ns change, .writing attempt⟩ =>
      change.builtIn && (change.guaranteed || traffic.pinned key name ns change attempt) &&
        (attempt.read.any fun entry => (uidOf entry.object).isSome) &&
        attempt.leavesData key name ns change
    | some ⟨.create _ _, .writing attempt⟩ =>
      traffic.versions.all fun version => uidOf version.object != uidOf attempt.commit.object
    | _ => true
  | .foreign other _ => other != key
  | _ => true

variable {key}

/-- The versions so far keep their data, and the one that is stored is the last of them. -/
structure DataInvariant (key : String) (traffic : Traffic) : Prop where
  sound : traffic.Sound key
  kept : traffic.versions.Pairwise (DataKept key)
  last : ∀ entry, traffic.store.entries key = some entry →
    ∃ earlier, traffic.versions = earlier ++ [entry]

variable {before : Traffic} {attempt : Attempt} {inTime : Bool} {index : Nat}

/-- A write of an object that is stored: one more version, of the same uid and with the same
data. -/
theorem Lands.dataKept {name : String} {ns : Option String} {after : ObjectStore}
    (dataKey : DataKey key) (lands : Lands key before index (.write name ns change) attempt after)
    (bounded : before.int64 = true)
    (guarded : before.dataGuarded key (.commit index inTime) = true) {stored : Entry}
    (left : after.entries key = some stored) :
    ∃ entry uid, before.store.entries key = some entry ∧ uidOf entry.object = some uid ∧
      uidOf stored.object = some uid ∧
      (isImmutable entry.object = true → KeepsData key entry.object stored.object) := by
  simp only [dataGuarded, lands.called, Bool.and_eq_true] at guarded
  have ⟨⟨⟨builtIn, pinned⟩, hasUid⟩, leaves⟩ := guarded
  have ⟨entry, existing, read, injected, prepared⟩ := lands.sound.write
  have ⟨asked, obj, asks, finished, isCommit⟩ := prepare_ok prepared
  have ⟨shown, shows, admitted⟩ := bind_eq_ok.mp asks
  rw [read, any_some] at hasUid
  have ⟨uid, known⟩ := isSome_iff_exists.mp hasUid
  have current := lands.replaces bounded pinned
  have leavesAsked : leavesData key shown asked = true := by
    simpa [Attempt.leavesData, read, injected, shows, admitted, Except.toOption] using leaves
  refine ⟨entry, uid, current.trans read, known, ?_, fun immutable => ?_⟩
  · rw [Commit.land_uid lands.landed left, isCommit, persistOrFinalize_object]
    exact finish_uid finished ((injectResourceVersion_uid injected).trans known)
  · have landed := lands.landed
    rw [isCommit] at landed
    have stays := persistOrFinalize_entries landed (by rw [current, read]; rfl)
    rw [left] at stays
    split_ifs at stays
    rw [some.inj stays]
    dsimp only
    exact keepsData dataKey injected builtIn shows leavesAsked finished immutable _

variable {after : Traffic}

section

variable (inv : DataInvariant key before)

include inv

/-- One more version, that keeps the data of the one before it. -/
theorem DataInvariant.write (sound : after.Sound key) {entry stored : Entry} {uid : String}
    (current : before.store.entries key = some entry) (known : uidOf entry.object = some uid)
    (same : uidOf stored.object = some uid)
    (keeps : isImmutable entry.object = true → KeepsData key entry.object stored.object)
    (left : after.store.entries key = some stored)
    (versions : after.versions = before.versions ++ [stored]) : DataInvariant key after := by
  have ⟨earlier, isLast⟩ := inv.last entry current
  refine ⟨sound, ?_, fun found here => ?_⟩
  · rw [versions, pairwise_append]
    refine ⟨inv.kept, pairwise_singleton _ _, ?_⟩
    intro version old new isNew owner ofVersion ofNew immutable
    rw [mem_singleton.mp isNew] at ofNew ⊢
    obtain rfl : owner = uid := some.inj (ofNew.symm.trans same)
    -- An older version reaches the new one through the one that was stored.
    have kept := inv.kept
    rw [isLast] at old kept
    rcases mem_append.mp old with before | isEntry
    · have step := (pairwise_append.mp kept).2.2 version before entry mem_cons_self
      have through := step owner ofVersion known immutable
      exact through.trans (keeps through.1)
    · rw [mem_singleton.mp isEntry] at immutable ⊢
      exact keeps immutable
  · rw [left] at here
    cases here
    exact ⟨before.versions, versions⟩

theorem DataInvariant.create (sound : after.Sound key) {stored : Entry}
    (fresh : ∀ version ∈ before.versions, uidOf version.object ≠ uidOf stored.object)
    (left : after.store.entries key = some stored)
    (versions : after.versions = before.versions ++ [stored]) : DataInvariant key after := by
  refine ⟨sound, ?_, fun found here => ?_⟩
  · rw [versions, pairwise_append]
    refine ⟨inv.kept, pairwise_singleton _ _, ?_⟩
    intro version old new isNew uid ofVersion ofNew
    rw [mem_singleton.mp isNew] at ofNew
    exact absurd (ofVersion.trans ofNew.symm) (fresh version old)
  · rw [left] at here
    cases here
    exact ⟨before.versions, versions⟩

theorem DataInvariant.carry (sound : after.Sound key) (versions : after.versions = before.versions)
    (left : ∀ entry, after.store.entries key = some entry →
      before.store.entries key = some entry) : DataInvariant key after := by
  refine ⟨sound, by rw [versions]; exact inv.kept, fun entry here => ?_⟩
  rw [versions]
  exact inv.last entry (left entry here)

end

theorem Lands.dataInvariant {request : KeyRequest} (dataKey : DataKey key)
    (inv : DataInvariant key before) (sound : after.Sound key)
    (lands : Lands key before index request attempt after.store) (bounded : before.int64 = true)
    (guarded : before.dataGuarded key (.commit index inTime) = true)
    (versions : after.versions = before.versions ++ (after.store.entries key).toList) :
    DataInvariant key after := by
  cases left : after.store.entries key with
  | none =>
    rw [left, toList_none, append_nil] at versions
    refine inv.carry sound versions fun entry here => ?_
    rw [left] at here
    cases here
  | some stored =>
    rw [left, toList_some] at versions
    cases request with
    | write name ns change =>
      have ⟨entry, uid, current, known, same, keeps⟩ := lands.dataKept dataKey bounded guarded left
      exact inv.write sound current known same keeps left versions
    | create given request =>
      refine inv.create sound ?_ left versions
      rw [Commit.land_uid lands.landed left]
      simpa [dataGuarded, lands.called] using guarded
    | delete deletion =>
      have ⟨_, _, _, _, _, isCommit⟩ := lands.sound.delete
      have landed := lands.landed
      rw [isCommit] at landed
      rw [Commit.land_delete landed] at left
      cases left
    | evict eviction =>
      have ⟨_, _, _, _, isCommit⟩ := lands.sound.evict
      have landed := lands.landed
      rw [isCommit] at landed
      rw [Commit.land_delete landed] at left
      cases left
    | terminate | finalize =>
      exact absurd (lands.sound.namespaced _ fun _ => rfl).1 (by simp [dataKey.not_namespace])
    | remove options =>
      have ⟨_, planned⟩ := lands.sound.origin
      injection pure_eq_ok.mp planned with _ isCommit
      have landed := lands.landed
      rw [← isCommit] at landed
      rw [Commit.land_delete landed] at left
      cases left

theorem step_dataInvariant {action : TrafficAction}
    (dataKey : DataKey key) (inv : DataInvariant key before) (bounded : before.int64 = true)
    (guarded : before.dataGuarded key action = true)
    (taken : before.step key action = some after) : DataInvariant key after := by
  have sound := step_sound inv.sound taken
  cases step_moved inv.sound taken with
  | quiet store _ versions =>
    refine inv.carry sound versions fun entry here => ?_
    rwa [← store]
  | landed lands _ versions => exact lands.dataInvariant dataKey inv sound bounded guarded versions
  | foreign writes _ versions =>
    have different := bne_iff_ne.mp guarded
    rw [if_neg different, append_nil] at versions
    refine inv.carry sound versions fun entry here => ?_
    rwa [← ForeignWrite.land_of_ne writes different.symm]

end Traffic

/-- In every interleaving of guarded requests on a ConfigMap or Secret, an immutable version is
followed by versions of the same object with the same data, which are immutable too. -/
theorem immutable_data_kept (key : String) (dataKey : DataKey key) (store : ObjectStore)
    (traffic : Traffic)
    (reached : Transition.Reaches (Traffic.step key)
      (fun traffic action => (traffic.int64 && traffic.dataGuarded key action) = true)
      (Traffic.start key store) traffic) :
    traffic.versions.Pairwise (DataKept key) := by
  have inv : DataInvariant key traffic := by
    apply reached.invariant
    · refine ⟨start_sound store, ?_, fun entry here => ⟨[], ?_⟩⟩
      · change (store.entries key).toList.Pairwise _
        cases store.entries key <;> simp
      · change (store.entries key).toList = _
        change store.entries key = some entry at here
        rw [here]
        rfl
    · intro before action after inv permitted taken
      have ⟨bounded, guarded⟩ := Bool.and_eq_true_iff.mp permitted
      exact step_dataInvariant dataKey inv bounded guarded taken
  exact inv.kept

/-- The ConfigMap with a mode, as its body sets it. -/
def modeSettings (mode : String) (fields : List (String × Value)) : Value := .object ([
  ("data", .object [("mode", .string mode)])] ++ fields)

def frozenField : String × Value := ("immutable", .bool true)

def modeStore (fields : List (String × Value)) : ObjectStore :=
  ObjectStore.empty.write settingsKey
    (modeSettings "fast" (fields ++ [("metadata", .object [uidField "first"])]))

def putMode (mode : String) (fields : List (String × Value)) : TrafficAction :=
  .arrive (.write "settings" (some "default") (.put .builtIn (modeSettings mode fields)))

theorem immutable_data_kept_labels : ∃ traffic first second,
    Transition.Reaches (Traffic.step settingsKey)
      (fun traffic action => (traffic.int64 && traffic.dataGuarded settingsKey action) = true)
      (Traffic.start settingsKey (modeStore [frozenField])) traffic ∧
    traffic.versions = [first, second] ∧ isImmutable first.object = true ∧
    KeepsData settingsKey first.object second.object := by
  simp only [exists_and_left]
  refine exists_of_run
    [putMode "fast" [frozenField, ("metadata", .object [versionField "1"])], prepareSettings 0,
      .commit 0 true] rfl fun reached => ⟨_, _, rfl, rfl, ?_⟩
  have kept := immutable_data_kept settingsKey (.inl (by decide)) _ _ reached
  exact pairwise_pair.mp kept "first" rfl rfl rfl

/-- A PUT without a version that read the ConfigMap before it was made immutable overwrites it. -/
theorem immutable_data_overwritten : ∃ traffic first second third,
    Transition.Reaches (Traffic.step settingsKey) (fun _ _ => True)
      (Traffic.start settingsKey (modeStore [])) traffic ∧
    traffic.versions = [first, second, third] ∧ isImmutable second.object = true ∧
    uidOf third.object = uidOf second.object ∧
      ¬ KeepsData settingsKey second.object third.object := by
  refine ⟨_, _, _, _, Reaches.start.run
    [putMode "slow" [], prepareSettings 0, putMode "fast" [frozenField], prepareSettings 1,
      .commit 1 true, .commit 0 true] rfl, rfl, rfl, rfl, ?_⟩
  rintro ⟨immutable, -⟩
  cases immutable

end Rustkube
