import Rustkube.Traffic
import Rustkube.Uid
import Rustkube.WrittenMetadata

namespace Rustkube

open ObjectStore Option Transition Json Value

variable {strategy : Strategy} {ns : Option String} {key name : String}

section

variable {obj after stored : Value} {uid : String}

theorem carryStored_uid
    (carried : carryStored stored "uid" obj = some after) (known : uidOf stored = some uid) :
    uidOf after = some uid := by
  unfold uidOf at known ⊢
  rw [index_eq] at known
  unfold carryStored at carried
  cases found : stored["metadata"].get? "uid" with
  | none => simp [found, asStr?] at known
  | some value =>
    simp only [found, getD_some] at known carried
    have set : value.isNull = false := by cases value <;> simp_all [isNull, asStr?]
    rw [if_neg (by simp [set])] at carried
    rw [assignIn_self carried, known]

theorem keepServerFields_uid
    (kept : keepServerFields obj stored name ns = some after) (known : uidOf stored = some uid) :
    uidOf after = some uid := by
  have ⟨_, _, kept⟩ := bind_eq_some_iff.mp kept
  have ⟨_, _, kept⟩ := bind_eq_some_iff.mp kept
  have ⟨_, _, kept⟩ := bind_eq_some_iff.mp kept
  have ⟨owned, carried, kept⟩ := bind_eq_some_iff.mp kept
  have same : uidOf after = uidOf owned := by
    unfold uidOf
    rw [(carryStored_within kept).inside "uid" (by decide)]
  rw [same, carryStored_uid carried known]

variable {existing asked : Value} {api : Api}

theorem Api.sealUpdate_uid
    (finished : api.sealUpdate key existing asked = .ok obj) (known : uidOf existing = some uid) :
    uidOf obj = some uid := by
  have ⟨kept, first, rest⟩ := bind_eq_ok.mp finished
  have ⟨counted, second, last⟩ := bind_eq_ok.mp rest
  have same : uidOf obj = uidOf kept := by
    unfold uidOf
    rw [(Value.Within.of_assignIn (orPanic_eq_ok.mp last)).inside "uid" (by decide),
      (Generation.onUpdate_within (orPanic_eq_ok.mp second)).inside "uid" (by decide)]
  rw [same, keepServerFields_uid (orPanic_eq_ok.mp first) known]

theorem Api.sealPut_uid (finished : api.sealPut strategy key name ns existing asked = .ok obj)
    (known : uidOf existing = some uid) : uidOf obj = some uid := by
  have ⟨kept, first, rest⟩ := bind_eq_ok.mp finished
  have ⟨updated, second, rest⟩ := bind_eq_ok.mp rest
  have ⟨counted, third, last⟩ := bind_eq_ok.mp rest
  have shape := (keepServerFields_spec (orPanic_eq_ok.mp first)).2
  have strategic := Strategy.onUpdate_metadata second shape
    (by decide : "uid" ∈ Schema.OBJECT_META) (by decide)
  have same : uidOf obj = uidOf kept := by
    unfold uidOf
    rw [← pure_eq_ok.mp last, KindRules.foldSecret_index api.rules key counted (by decide)
      (by decide),
      (Generation.onUpdate_within (orPanic_eq_ok.mp third)).inside "uid" (by decide), strategic.1]
  rw [same, keepServerFields_uid (orPanic_eq_ok.mp first) known]

theorem ObjectWrite.finish_uid {change : ObjectWrite}
    (finished : change.finish api key name ns existing asked = .ok obj)
    (known : uidOf existing = some uid) : uidOf obj = some uid := by
  cases change with
  | put strategy body => exact Api.sealPut_uid finished known
  | _ => exact Api.sealUpdate_uid finished known

theorem injectResourceVersion_uid {rev : Nat}
    (injected : Storage.injectResourceVersion obj rev = some after) : uidOf after = uidOf obj := by
  unfold uidOf
  rw [(injectResourceVersion_within injected).inside "uid" (by decide)]

end

/-- The write replaced a live object, or let it go, and kept its uid. -/
def Landing.Replaces (landing : Landing) : Prop :=
  ∃ entry, landing.before = some entry ∧
    uidOf landing.attempt.commit.object = uidOf entry.object ∧
    ∀ stored ∈ landing.after, uidOf stored.object = uidOf entry.object

/-- The version that the object of a write names as it leaves admission. -/
def Attempt.namedVersion (key name : String) (ns : Option String) (change : ObjectWrite)
    (attempt : Attempt) : Option Nat := do
  let entry ← attempt.read
  let existing ← Storage.injectResourceVersion entry.object entry.modRevision
  let asked ← (change.ask attempt.api attempt.codec key name ns existing).toOption
  asked["metadata"]["resourceVersion"].asStr?.bind parseU64Text

theorem Attempt.Sound.put_prevRevision {store : ObjectStore} {body : Value} {attempt : Attempt}
    (sound : attempt.Sound key store (.write name ns (.put strategy body))) :
    attempt.commit.prevRevision = attempt.namedVersion key name ns (.put strategy body) := by
  have ⟨entry, existing, read, injected, prepared⟩ := sound.write
  have ⟨asked, obj, asks, finished, isCommit⟩ := ObjectWrite.prepare_ok prepared
  rw [isCommit, Api.sealPut_prevRevision finished]
  unfold namedVersion
  rw [read, bind_eq_bind, bind_some, injected, bind_eq_bind, bind_some, asks]
  rfl

namespace Traffic

variable (key : String)

/-- The key still has the revision that was read. -/
def unmoved (traffic : Traffic) (attempt : Attempt) : Bool :=
  attempt.read.any fun entry => traffic.store.modRevision key == entry.modRevision

/-- A PUT writes while the key is as it read it, or names the version it read. -/
def pinned (traffic : Traffic) (name : String) (ns : Option String) (change : ObjectWrite)
    (attempt : Attempt) : Bool :=
  traffic.unmoved key attempt ||
    attempt.read.any fun entry =>
      attempt.namedVersion key name ns change == some entry.modRevision

/-- Every PUT that writes is pinned to a version with a uid. -/
def putsPinned (traffic : Traffic) : TrafficAction → Bool
  | .commit index _ =>
    match traffic.calls[index]? with
    | some ⟨.write name ns (.put strategy body), .writing attempt⟩ =>
      traffic.pinned key name ns (.put strategy body) attempt &&
        attempt.read.any fun entry => (uidOf entry.object).isSome
    | _ => true
  | _ => true

variable {key}

variable {before : Traffic} {index : Nat} {attempt : Attempt} {after : ObjectStore}

theorem Lands.unmoved {request : KeyRequest} (lands : Lands key before index request attempt after)
    (still : before.unmoved key attempt = true) : before.store.entries key = attempt.read := by
  unfold Traffic.unmoved at still
  cases read : attempt.read with
  | none => simp [read] at still
  | some entry =>
    rw [read, any_some, beq_iff_eq] at still
    exact (lands.sound.known entry read).current still

theorem Lands.pinned {body : Value}
    (lands : Lands key before index (.write name ns (.put strategy body)) attempt after)
    (holds : before.pinned key name ns (.put strategy body) attempt = true) :
    before.store.entries key = attempt.read := by
  rcases Bool.or_eq_true_iff.mp holds with still | named
  · exact lands.unmoved still
  · cases read : attempt.read with
    | none => simp [read] at named
    | some entry =>
      rw [read, any_some, beq_iff_eq] at named
      exact lands.conditional read (lands.sound.put_prevRevision.trans named)

theorem Lands.replaces {change : ObjectWrite}
    (lands : Lands key before index (.write name ns change) attempt after)
    (bounded : before.int64 = true)
    (holds : (change.guaranteed || before.pinned key name ns change attempt) = true) :
    before.store.entries key = attempt.read := by
  rcases Bool.or_eq_true_iff.mp holds with guaranteed | pinned
  · exact lands.guaranteed bounded guaranteed
  · cases change with
    | put strategy body => exact lands.pinned pinned
    | _ => exact lands.guaranteed bounded rfl

end Traffic

theorem Commit.land_uid {rules : KindRules} {store after : ObjectStore}
    {commit : Commit} (landed : commit.land rules store key = .ok after) {stored : Entry}
    (left : after.entries key = some stored) : uidOf stored.object = uidOf commit.object := by
  cases commit with
  | update object prevRevision =>
    rw [(put_ok landed).2, write_entries_self] at left
    rw [← some.inj left]
    dsimp only [Commit.object]
    rw [storedForm_uid]
  | delete object prevRevision =>
    rw [(delete_ok landed).2] at left
    split_ifs at left with present
    · rw [erase_entries_self] at left
      cases left
    · rw [left] at present
      cases present rfl

/-- In every interleaving of PUTs with other requests and writers, a PUT that is pinned to the
version it read replaces a live object of its own uid, or lets it go. -/
theorem put_replaces_its_object (key : String) (store : ObjectStore) (traffic : Traffic)
    (reached : Transition.Reaches (Traffic.step key)
      (fun traffic action => traffic.putsPinned key action = true)
        (Traffic.start key store) traffic) :
    ∀ landing ∈ traffic.landed, ∀ name ns strategy body,
      landing.request = .write name ns (.put strategy body) → landing.Replaces := by
  refine Traffic.landings reached ?_
  intro before index inTime request attempt after pinned lands name ns strategy body isPut
  obtain rfl : request = .write name ns (.put strategy body) := isPut
  simp only [Traffic.putsPinned, lands.called, Bool.and_eq_true] at pinned
  have ⟨entry, existing, read, injected, prepared⟩ := lands.sound.write
  have ⟨asked, obj, asks, finished, isCommit⟩ := ObjectWrite.prepare_ok prepared
  have current : before.store.entries key = some entry := (lands.pinned pinned.1).trans read
  obtain ⟨uid, known⟩ : ∃ uid, uidOf entry.object = some uid := by
    rw [read, any_some] at pinned
    exact isSome_iff_exists.mp pinned.2
  have same : uidOf attempt.commit.object = uidOf entry.object := by
    rw [isCommit, persistOrFinalize_object, known]
    exact ObjectWrite.finish_uid finished ((injectResourceVersion_uid injected).trans known)
  refine ⟨entry, current, same, fun stored left => ?_⟩
  rw [Commit.land_uid lands.landed left, same]

/-- The ConfigMap under a uid. -/
def uidField (uid : String) : String × Value := ("uid", .string uid)

def versionField (version : String) : String × Value := ("resourceVersion", .string version)

def putSettingsCall (metadata : List (String × Value)) : TrafficAction :=
  .arrive (.write "settings" (some "default") (.put .builtIn (settings metadata)))

def deleteSettingsCall : TrafficAction :=
  .arrive (.delete ⟨"settings", some "default", ⟨none, none, false⟩, none, none,
    "2026-01-01T00:00:00Z"⟩)

/-- Another writer creates the key again, under another uid. -/
def recreateSettings : TrafficAction :=
  .foreign settingsKey (.put (settings [uidField "second"]) (some 0))

/-- The request at an index reads and prepares its write. -/
def prepareSettings (index : Nat) : TrafficAction := .prepare index settingsApi settingsCodec

theorem put_replaces_its_object_versioned : ∃ traffic landing,
    Transition.Reaches (Traffic.step settingsKey)
      (fun traffic action => traffic.putsPinned settingsKey action = true)
      (Traffic.start settingsKey (settingsStore [uidField "first"])) traffic ∧
    landing ∈ traffic.landed ∧ landing.Replaces := by
  simp only [exists_and_left]
  refine exists_of_run [putSettingsCall [versionField "1"], prepareSettings 0, .commit 0 true] rfl
    fun reached => ⟨_, .head _, ?_⟩
  exact put_replaces_its_object settingsKey _ _ reached _ (.head _) _ _ _ _ rfl

/-- A PUT without a version brings back an object that was deleted after it was read, or overwrites
the one that was created in its place. -/
theorem put_after_delete :
    (∃ traffic landing, Transition.Reaches (Traffic.step settingsKey) (fun _ _ => True)
        (Traffic.start settingsKey (settingsStore [uidField "first"])) traffic ∧
      landing ∈ traffic.landed ∧
      landing.request = .write "settings" (some "default") (.put .builtIn (settings [])) ∧
      landing.before = none ∧ landing.after.isSome = true ∧ ¬ landing.Replaces) ∧
    ∃ traffic landing, Transition.Reaches (Traffic.step settingsKey) (fun _ _ => True)
        (Traffic.start settingsKey (settingsStore [uidField "first"])) traffic ∧
      landing ∈ traffic.landed ∧
      landing.request = .write "settings" (some "default") (.put .builtIn (settings [])) ∧
      landing.before.map (uidOf ·.object) = some (some "second") ∧
      landing.after.map (uidOf ·.object) = some (some "first") ∧ ¬ landing.Replaces := by
  have revived {landing : Landing} (absent : landing.before = none) : ¬ landing.Replaces := by
    rintro ⟨entry, held, -⟩
    cases absent.symm.trans held
  have overwritten {landing : Landing}
    (other : landing.before.map (uidOf ·.object) = some (some "second"))
      (own : landing.after.map (uidOf ·.object) = some (some "first")) : ¬ landing.Replaces := by
    rintro ⟨entry, held, -, kept⟩
    have ⟨stored, left, isFirst⟩ := map_eq_some_iff.mp own
    rw [held, map_some] at other
    rw [kept stored left, some.inj other] at isFirst
    simp at isFirst
  exact ⟨⟨_, _, Reaches.start.run [putSettingsCall [], prepareSettings 0, deleteSettingsCall,
      prepareSettings 1, .commit 1 true, .commit 0 true] rfl, .tail _ (.head _), rfl, rfl, rfl,
        revived rfl⟩,
    _, _, Reaches.start.run [putSettingsCall [], prepareSettings 0, deleteSettingsCall,
      prepareSettings 1, .commit 1 true, recreateSettings, .commit 0 true] rfl,
    .tail _ (.head _), rfl, rfl, rfl, overwritten rfl rfl⟩

open ObjectWrite

variable (api : Api) (codec : Patch.Codec) (key name : String) (ns : Option String)
  (strategy : Strategy) (body : Value) (store : ObjectStore)

/-- A PUT whose body names any other version than the one that is stored fails and changes
nothing. -/
def PutHonours : Prop :=
  ∀ version, body["metadata"]["resourceVersion"] = .string version → version ≠ "" →
    (∀ entry, store.entries key = some entry → version ≠ toString entry.modRevision) →
    (∃ failure, (ObjectWrite.put strategy body).perform api codec key name ns store =
      .error failure) ∧
    (ObjectWrite.put strategy body).result api codec key name ns store = store

/-- The revision that a version stands for as it leaves the webhooks: the one that was sent where
they leave it as they are shown it. -/
def sentRevision (version : String) (shown answer : Value) : Option Nat :=
  if answer["metadata"]["resourceVersion"] = shown["metadata"]["resourceVersion"] then
    parseU64Text version
  else answer["metadata"]["resourceVersion"].asStr?.bind parseU64Text

/-- The body names the stored version, or one that stands for another revision, unless the PUT is
refused before its write. -/
def PutComparable : Prop :=
  ∀ version, body["metadata"]["resourceVersion"] = .string version → version ≠ "" →
    ∀ entry existing shown answer commit, store.entries key = some entry →
      Storage.injectResourceVersion entry.object entry.modRevision = some existing →
      (put strategy body).Asks api codec key name ns existing body shown answer →
      (put strategy body).prepare api codec key name ns existing = .ok commit →
      version = toString entry.modRevision ∨
        ∃ revision ∈ sentRevision version shown answer, revision ≠ entry.modRevision

variable {api key name ns strategy body store} {entry : Entry}

/-- A PUT that is not refused before its write lands where its swap holds. -/
theorem put_lands {existing : Value} {commit : Commit} (stored : store.entries key = some entry)
    (injected : Storage.injectResourceVersion entry.object entry.modRevision = some existing)
    (prepared : (put strategy body).prepare api codec key name ns existing = .ok commit)
    (expects : store.expects key commit.prevRevision = true) :
    ∃ after, (put strategy body).perform api codec key name ns store = .ok after := by
  have ⟨after, landed⟩ : ∃ after, commit.land api.rules store key = .ok after := by
    cases commit with
    | update | delete => exact ⟨_, if_pos expects⟩
  have read : store.get key = .ok existing := by
    rw [ObjectStore.get, stored]
    exact orPanic_eq_ok.mpr injected
  refine ⟨after, bind_eq_ok.mpr ⟨existing, read, bind_eq_ok.mpr ⟨_, prepared, ?_⟩⟩⟩
  rw [landed]
  rfl

/-- The swap of a PUT is against the version that its body names, as it leaves the webhooks. -/
theorem put_prevRevision {existing shown answer : Value} {commit : Commit} {version : String}
    (named : body["metadata"]["resourceVersion"] = .string version)
    (asks : (put strategy body).Asks api codec key name ns existing body shown answer)
    (prepared : (put strategy body).prepare api codec key name ns existing = .ok commit) :
    commit.prevRevision = sentRevision version shown answer := by
  obtain ⟨asked, obj, ask, finished, rfl⟩ := prepare_ok prepared
  have ⟨_, _, _, again, fields⟩ := asks_of_ask ask
  obtain ⟨rfl, rfl, rfl⟩ := asks.eq again
  have ⟨shows, back⟩ := fields "resourceVersion" ⟨by decide, by decide, by decide, by decide⟩
    (by decide)
  rw [Api.sealPut_prevRevision finished, back]
  unfold sentRevision
  split_ifs with left
  · rw [left, shows.text, named]
    rfl
  · rfl

theorem expects_entry (stored : store.entries key = some entry) (prevRevision : Option Nat) :
    store.expects key prevRevision = true ↔ ∀ revision ∈ prevRevision, revision =
      entry.modRevision := by
  cases prevRevision with
  | none => simp [expects]
  | some revision =>
    rw [expects_iff, modRevision, stored]
    simp [eq_comm]

theorem put_honours_version_iff :
    PutHonours api codec key name ns strategy body store ↔
      PutComparable api codec key name ns strategy body store := by
  constructor
  · intro honours version named given entry existing shown answer commit stored injected asks
      prepared
    by_contra neither
    have ⟨otherVersion, noOther⟩ := not_or.mp neither
    have expects : store.expects key commit.prevRevision = true := by
      rw [expects_entry stored, put_prevRevision codec named asks prepared]
      intro revision sent
      by_contra different
      exact noOther ⟨revision, sent, different⟩
    have stale : ∀ found, store.entries key = some found →
        version ≠ toString found.modRevision := by
      intro found here
      rw [stored] at here
      cases here
      exact otherVersion
    have ⟨after, performed⟩ := put_lands codec stored injected prepared expects
    obtain ⟨⟨failure, failed⟩, -⟩ := honours version named given stale
    rw [performed] at failed
    cases failed
  · intro comparable version named given stale
    cases performed : (ObjectWrite.put strategy body).perform api codec key name ns store with
    | error failure =>
      refine ⟨⟨failure, rfl⟩, ?_⟩
      rw [ObjectWrite.result, performed]
    | ok after =>
      have ⟨existing, commit, read, prepared, landed⟩ := perform_ok performed
      have ⟨entry, stored, injected⟩ := ObjectStore.get_ok read
      have ⟨asked, _, ask, _⟩ := prepare_ok prepared
      obtain ⟨document, shown, answer, asks, -⟩ := asks_of_ask ask
      cases asks.mutates
      rcases comparable version named given entry existing shown answer commit stored injected asks
        prepared with same | ⟨revision, sent, different⟩
      · exact absurd same (stale entry stored)
      · have expects := Commit.land_expects landed
        rw [expects_entry stored, put_prevRevision codec named asks prepared] at expects
        exact absurd (expects revision sent) different

/-- A PUT of the ConfigMap at revision 1 that names a version. -/
def HonoursSettings (version : String) : Prop :=
  PutHonours settingsApi settingsCodec settingsKey "settings" (some "default") .builtIn
    (settings [versionField version]) (settingsStore [uidField "first"])

/-- A version that is no number is no condition, and one that is the revision in other words is
taken for it. -/
theorem put_ignores_version : ¬ HonoursSettings "latest" ∧ ¬ HonoursSettings "+1" := by
  have fails {version : String} (given : version ≠ "") (other : version ≠ "1")
      (landed : ∃ after, (ObjectWrite.put .builtIn (settings [versionField version])).perform
        settingsApi settingsCodec settingsKey "settings" (some "default")
        (settingsStore [uidField "first"]) = .ok after) : ¬ HonoursSettings version := by
    intro honours
    have ⟨after, performed⟩ := landed
    have stale : ∀ entry, (settingsStore [uidField "first"]).entries settingsKey = some entry →
        version ≠ toString entry.modRevision := by
      intro entry stored
      cases stored
      exact other
    obtain ⟨⟨failure, failed⟩, -⟩ := honours version rfl given stale
    rw [performed] at failed
    cases failed
  exact ⟨fails (by decide) (by decide) ⟨_, rfl⟩, fails (by decide) (by decide) ⟨_, rfl⟩⟩

end Rustkube
