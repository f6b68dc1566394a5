import Rustkube.Create
import Rustkube.ObjectWrite

namespace Rustkube

open Quantity Generation Option Json Storage

variable {draft obj : Value} {given : Creation} {name : String}

def uidOf (obj : Value) : Option String := obj["metadata"]["uid"].asStr?

/-- A uid of its own, that `ensure_metadata` keeps. -/
def carriedUid (obj : Value) : Option String := (uidOf obj).filter (· ≠ "")

theorem uidOf_object (root : Fields) :
    uidOf (.object root) =
      (Fields.get? (((root.get? "metadata").bind Value.asObject?).getD []) "uid").bind
          Value.asStr? := by
  unfold uidOf
  rw [Value.index_object]
  cases root.get? "metadata" with
  | none => rfl
  | some metadata =>
    cases metadata with
    | object fields =>
      change (((Fields.get? fields "uid").getD .null).asStr?) =
        (Fields.get? fields "uid").bind Value.asStr?
      cases Fields.get? fields "uid" <;> rfl
    | _ => rfl

theorem isObject_of_uid {uid : String} (carried : uidOf obj = some uid) : obj.isObject = true := by
  cases obj with
  | object root => rfl
  | _ => cases carried

theorem ensureMetadata_uid (uid now name : String) (ns : Option String)
    (shape : obj.isObject = true) :
    uidOf (ensureMetadata uid now obj name ns) = some ((carriedUid obj).getD uid) ∧
      (ensureMetadata uid now obj name ns)["metadata"].isObject = true := by
  obtain ⟨root, rfl⟩ := Value.isObject_iff.mp shape
  constructor
  · rw [carriedUid, uidOf_object]
    unfold ensureMetadata Value.mapObject
    rw [uidOf_object, Fields.get?_insert_self]
    change (Fields.get? (fillUnset "creationTimestamp" now _) "uid").bind Value.asStr? = _
    rw [get?_fillUnset_of_ne _ (by decide), get?_fillUnset_self,
      get?_fillNamespace_of_ne _ ns (by decide), get?_fillName_of_ne _ (by decide)]
    unfold unset
    generalize Fields.get? _ "uid" = field
    cases found : field.bind Value.asStr? with
    | none => rfl
    | some text =>
      by_cases empty : text = ""
      · subst empty
        rfl
      · simp [empty, found, Option.filter]
  · unfold ensureMetadata Value.mapObject
    rw [Value.index_object, Fields.get?_insert_self]
    rfl

theorem storedForm_uid (canonical : Value → String) (resource : String) (obj : Value) :
    uidOf (storedForm canonical resource obj) = uidOf obj :=
  storedForm_metadata canonical resource obj (by decide) (by decide)

/-- `after` is the same object as `before`: it has its uid, in a `metadata` that is still one. -/
structure SameUid (before after : Value) : Prop where
  uid : uidOf after = uidOf before
  shape : before["metadata"].isObject = true → after["metadata"].isObject = true

theorem SameUid.trans {first second third : Value} (left : SameUid first second)
    (right : SameUid second third) : SameUid first third :=
  ⟨right.uid.trans left.uid, fun shape => right.shape (left.shape shape)⟩

variable {after body : Value} {strategy : Strategy} {ns : Option String} {rules : KindRules}
  {resource suffix field : String} {api : Api}

theorem SameUid.of_metadata {before : Value}
    (same : after["metadata"] = before["metadata"]) : SameUid before after := by
  constructor
  · unfold uidOf
    rw [same]
  · rw [same]
    exact id

theorem SameUid.of_insert (obj : Value) (value : Value) (other : field ≠ "uid") :
    SameUid obj (obj.insert "metadata" (obj["metadata"].insert field value)) := by
  cases obj with
  | object root =>
    have written : ((Value.object root).insert "metadata"
        ((Value.object root)["metadata"].insert field value))["metadata"] =
        (Value.object root)["metadata"].insert field value := Value.index_insert_self rfl
    constructor
    · unfold uidOf
      rw [written, Value.index_insert_of_ne other.symm]
    · intro shape
      rwa [written, Value.isObject_insert]
  | _ => exact ⟨rfl, id⟩

theorem Defaulted.apply_sameUid (defaulted : Defaulted) (obj : Value) :
    SameUid obj (defaulted.apply obj) := by
  have fields : ∀ (fields : Fields) (obj : Value), (∀ field ∈ fields, field.1 ≠ "metadata") →
      (fields.foldl (fun obj field => obj.insert field.1 field.2) obj)["metadata"] =
        obj["metadata"] := by
    intro fields
    induction fields with
    | nil => exact fun _ _ => rfl
    | cons field rest ih =>
      intro obj outside
      rw [List.foldl_cons, ih _ fun entry member => outside entry (.tail _ member),
        Value.index_insert_of_ne (outside field (.head _)).symm]
  have noted : ∀ (fields : Fields) (obj : Value),
      (∀ field ∈ fields, field.1 ∈ ["annotations", "labels"]) → SameUid obj (fields.foldl
        (fun obj field => obj.insert "metadata" (obj["metadata"].insert field.1 field.2)) obj) := by
    intro fields
    induction fields with
    | nil => exact fun _ _ => .of_metadata rfl
    | cons field rest ih =>
      intro obj inside
      have other : field.1 ≠ "uid" := fun same => by simpa [same] using inside field (.head _)
      exact (SameUid.of_insert obj field.2 other).trans
        (ih _ fun entry member => inside entry (.tail _ member))
  exact (SameUid.of_metadata (fields defaulted.fields obj defaulted.outside)).trans
    (noted defaulted.metadata _ defaulted.noted)

theorem namespaceDefaults_metadata
    (defaulted : namespaceDefaults obj = some after) : after["metadata"] = obj["metadata"] := by
  have ⟨active, first, rest⟩ := bind_eq_some_iff.mp defaulted
  have ⟨opened, second, last⟩ := bind_eq_some_iff.mp rest
  rw [Value.assignIn_of_ne last (by decide), openField_metadata (by decide) second]
  unfold activate at first
  split_ifs at first with terminating
  · rw [some.inj first]
  · exact Value.assign_of_ne first (by decide)

theorem admitCreate_sameUid
    (admitted : admitCreate rules given resource ns obj = .ok after) : SameUid obj after := by
  have ⟨spaced, first, rest⟩ := bind_eq_ok.mp admitted
  have ⟨defaulted, _, last⟩ := bind_eq_ok.mp rest
  rw [← pure_eq_ok.mp last]
  have walked : SameUid obj (numbersToStrings rules.canonical resource obj) :=
    ⟨(numbersToStrings_metadata obj (by decide)).text, numbersToStrings_isObject⟩
  have active : SameUid (numbersToStrings rules.canonical resource obj) spaced := by
    apply SameUid.of_metadata
    have opened := orPanic_eq_ok.mp first
    unfold defaultNamespace at opened
    split_ifs at opened with isNamespace
    · exact namespaceDefaults_metadata opened
    · rw [some.inj opened]
  have set : SameUid spaced
      (if DEFAULTED.contains resource then defaulted.apply spaced else spaced) := by
    split_ifs
    · exact defaulted.apply_sameUid spaced
    · exact ⟨rfl, id⟩
  refine (walked.trans active).trans (set.trans ?_)
  apply SameUid.of_metadata
  by_cases secret : resource = "secrets"
  · rw [if_pos secret]
    exact foldStringData_index _ (by decide) (by decide)
  · rw [if_neg secret]

theorem Generation.begin_sameUid (obj : Value) : SameUid obj (begin obj) := by
  unfold begin
  cases found : obj.get? "metadata" with
  | none => exact ⟨rfl, id⟩
  | some metadata =>
    have index : obj["metadata"] = metadata := by rw [Value.index_eq, found]; rfl
    rw [← index]
    exact .of_insert obj _ (by decide)

theorem Generation.onCreate_sameUid (resource : String) (obj : Value) :
    SameUid obj (onCreate resource obj) := by
  unfold onCreate
  split_ifs
  · exact begin_sameUid obj
  · exact ⟨rfl, id⟩

theorem Strategy.onCreate_uid (created : strategy.onCreate rules obj = .ok after)
    (shape : obj["metadata"].isObject = true) : uidOf after = uidOf obj := by
  cases strategy with
  | builtIn => rw [← pure_eq_ok.mp created]
  | custom statusSubresource schema validation =>
    have ⟨pruned, first, rest⟩ := bind_eq_ok.mp created
    have kept : uidOf pruned = uidOf obj :=
      congrArg Value.asStr? (applySchema_metadata first shape (by decide)).1
    rw [← kept]
    split_ifs at rest with bare
    · rw [← pure_eq_ok.mp rest]
    · have ⟨_, _, last⟩ := bind_eq_ok.mp rest
      rw [← pure_eq_ok.mp last, (begin_sameUid _).uid]
      unfold dropStatus
      split_ifs
      · exact (SameUid.of_metadata (Value.index_remove_of_ne (by decide))).uid
      · rfl

theorem finishCreate_uid (finished : finishCreate api resource strategy obj = .ok after)
    (shape : obj["metadata"].isObject = true) : uidOf after = uidOf obj := by
  have same : SameUid obj (if strategy = .builtIn then onCreate resource obj else obj) := by
    split_ifs
    · exact onCreate_sameUid resource obj
    · exact ⟨rfl, id⟩
  rw [Strategy.onCreate_uid finished (same.shape shape), same.uid]

/-- A create whose draft names no uid, and whose webhooks leave the generated one alone, ends with
one of the two the server generated for it. -/
theorem newObject_uid {builtin finish : Value → Except Failure Value}
    (created : newObject api given ns name builtin finish draft = .ok after)
    (root : draft.isObject = true) (plain : carriedUid draft = none)
    (admits : ∀ obj sent, builtin obj = .ok sent → SameUid obj sent)
    (left : ∀ sent asked, builtin (ensureMetadata given.uid given.now draft name ns) = .ok sent →
      api.admitWrite .create sent none = .ok asked → uidOf asked = uidOf sent)
    (finishes : ∀ obj done, finish obj = .ok done → obj["metadata"].isObject = true →
      uidOf done = uidOf obj) : uidOf after = some given.uid ∨ uidOf after = some given.again := by
  have ⟨sent, first, rest⟩ := bind_eq_ok.mp created
  have ⟨asked, second, last⟩ := bind_eq_ok.mp rest
  have generated := (ensureMetadata_uid given.uid given.now name ns root).1
  rw [plain] at generated
  have kept : uidOf asked = some given.uid := by
    rw [left sent asked first second, (admits _ sent first).uid]
    exact generated
  have filled := ensureMetadata_uid given.again given.now name ns (isObject_of_uid kept)
  rw [finishes _ after last filled.2, filled.1, carriedUid, kept]
  by_cases empty : given.uid = ""
  · exact .inr (by simp [empty, Option.filter])
  · exact .inl (by simp [empty, Option.filter])

theorem isObject_of_name
    (named : body["metadata"][field].asStr? = some name) : body.isObject = true := by
  cases body with
  | object root => rfl
  | _ => cases named

theorem objectName_ok
    (named : objectName suffix body = .ok (name, draft)) :
    draft.isObject = true ∧ uidOf draft = uidOf body := by
  unfold objectName at named
  split at named
  · rename_i given
    have ⟨found, _⟩ := filter_eq_some_iff.mp given
    cases pure_eq_ok.mp named
    exact ⟨isObject_of_name found, rfl⟩
  · split at named
    · simp at named
    · have ⟨opened, first, rest⟩ := bind_eq_ok.mp named
      have ⟨written, second, last⟩ := bind_eq_ok.mp rest
      cases pure_eq_ok.mp last
      have writes := orPanic_eq_ok.mp second
      refine ⟨Value.isObject_of_index (Value.assignIn_isObject writes), ?_⟩
      unfold uidOf
      rw [Value.assignIn_inner_of_ne writes (by decide),
        (openMetadata_within (orPanic_eq_ok.mp first)).inside "uid" List.not_mem_nil]

variable {codec : Patch.Codec} {request : CreateRequest}

theorem applied_isObject {params : Apply.Params} {body : Bytes}
    (made : applied codec params body = .ok draft) : draft.isObject = true := by
  have ⟨intent, _, made⟩ := bind_eq_ok.mp made
  have ⟨opened, _, written⟩ := bind_eq_some_iff.mp (orPanic_eq_ok.mp made)
  exact Value.isObject_of_index (Value.assignIn_isObject written)

theorem CreateRequest.draft_isObject
    (drafted : request.draft codec suffix = .ok (name, draft)) : draft.isObject = true := by
  have posts {ns : Option String} {body : Value}
      (posted : posted suffix ns body = .ok (name, draft)) : draft.isObject = true := by
    have ⟨⟨found, plain⟩, first, rest⟩ := bind_eq_ok.mp posted
    have ⟨_, _, last⟩ := bind_eq_ok.mp rest
    cases pure_eq_ok.mp last
    exact (objectName_ok first).1
  cases request with
  | post | custom => exact posts drafted
  | apply storage resource asked ns strategy params body =>
    have ⟨obj, first, last⟩ := bind_eq_ok.mp drafted
    cases pure_eq_ok.mp last
    exact applied_isObject first
  | definition | event => exact (objectName_ok drafted).1
  | project asked =>
    have ⟨_, _, rest⟩ := bind_eq_ok.mp drafted
    have ⟨_, _, last⟩ := bind_eq_ok.mp rest
    cases pure_eq_ok.mp last
    rfl
  | binding ns user =>
    cases pure_eq_ok.mp drafted
    rfl

/-- The webhooks give the object back with the uid they were shown. -/
def CreateRequest.uidLeft (api : Api) (given : Creation) (request : CreateRequest) (name : String)
    (draft : Value) : Bool :=
  !request.hooked ||
    match request.builtin api given (ensureMetadata given.uid given.now draft name request.ns) with
    | .error _ => true
    | .ok sent =>
      match api.admitWrite .create sent none with
      | .error _ => true
      | .ok asked => uidOf asked == uidOf sent

theorem CreateRequest.object_uid {api : Api}
    (made : request.object api given name draft = .ok obj)
    (root : draft.isObject = true) (plain : carriedUid draft = none)
    (left : request.uidLeft api given name draft = true) :
    uidOf obj = some given.uid ∨ uidOf obj = some given.again := by
  have generated (ns : Option String) :
      uidOf (ensureMetadata given.uid given.now draft name ns) = some given.uid := by
    rw [(ensureMetadata_uid given.uid given.now name ns root).1, plain]
    rfl
  have leaves (hooks : request.hooked = true) (sent asked : Value)
    (built : request.builtin api given
        (ensureMetadata given.uid given.now draft name request.ns) = .ok sent)
      (admitted : api.admitWrite .create sent none = .ok asked) : uidOf asked = uidOf sent := by
    simpa [uidLeft, hooks, built, admitted] using left
  cases request with
  | post resource ns body =>
    rw [object, createResource] at made
    refine newObject_uid made root plain (fun _ _ => admitCreate_sameUid) (leaves rfl) ?_
    intro obj done finished _
    rw [← pure_eq_ok.mp finished]
    exact (onCreate_sameUid resource obj).uid
  | custom storage resource ns strategy body =>
    refine newObject_uid made root plain (fun _ _ same => ?_) (leaves rfl) fun _ _ =>
      finishCreate_uid
    rw [← pure_eq_ok.mp same]
    exact ⟨rfl, id⟩
  | definition body =>
    rw [object, createDefinition] at made
    refine newObject_uid made root plain (fun _ _ same => ?_) (leaves rfl) ?_
    · rw [← pure_eq_ok.mp same]
      exact ⟨rfl, id⟩
    · intro obj done finished _
      have ⟨_, _, written⟩ := bind_eq_ok.mp finished
      exact (SameUid.of_metadata (Value.assign_of_ne (orPanic_eq_ok.mp written) (by decide))).uid
  | apply storage resource asked ns strategy params body =>
    rw [object, createApplied] at made
    refine newObject_uid made root plain (fun obj sent built => ?_) (leaves rfl)
      fun _ _ => finishCreate_uid
    split_ifs at built with namespaced
    · exact admitCreate_sameUid built
    · rw [← pure_eq_ok.mp built]
      exact ⟨rfl, id⟩
  | event ns body =>
    rw [← pure_eq_ok.mp made]
    exact .inl (generated (some ns))
  | project asked => exact .inl ((admitCreate_sameUid made).uid.trans (generated none))
  | binding ns user =>
    rw [← pure_eq_ok.mp made]
    exact .inl (generated (some ns))

open CreateRequest List Transition

/-- The store, how many UUIDs were generated, and every object as it was created. -/
structure UidState where
  store : ObjectStore
  minted : Nat
  created : List Entry

/-- A create, any other write, or the removal of an object. -/
inductive UidAction where
  | create (api : Api) (codec : Patch.Codec) (given : Creation) (request : CreateRequest)
  | write (api : Api) (codec : Patch.Codec) (key name : String) (ns : Option String)
      (change : ObjectWrite)
  | remove (key : String)

namespace UidState

/- `fresh n` is the UUID generated after `n` others. -/
variable (fresh : Nat → String)

/-- The two UUIDs a create may take. -/
def mint (state : UidState) (given : Creation) : Creation :=
  { given with uid := fresh state.minted, again := fresh (state.minted + 1) }

/-- A create that is refused is no step. -/
def step (state : UidState) : UidAction → Option UidState
  | .create api codec given request => do
    let (key, after) ← (request.perform api codec (state.mint fresh given) state.store).toOption
    some ⟨after, state.minted + 2, state.created ++ (after.entries key).toList⟩
  | .write api codec key name ns change =>
    some { state with store := change.result api codec key name ns state.store }
  | .remove key => some { state with store := state.store.erase key }

/-- No create asks for a uid of its own, and no webhook sets one. -/
def uidsLeft (state : UidState) : UidAction → Bool
  | .create api codec given request =>
    match request.draft codec given.suffix with
    | .ok (name, draft) => (carriedUid draft).isNone &&
        request.uidLeft api (state.mint fresh given) name draft
    | .error _ => true
  | _ => true

end UidState

/-- Every object created has a UUID of its own among those generated. -/
structure UidInvariant (fresh : Nat → String) (state : UidState) : Prop where
  generated : ∀ entry ∈ state.created, ∃ n < state.minted, uidOf entry.object = some (fresh n)
  distinct : state.created.Pairwise fun first second => uidOf first.object ≠ uidOf second.object

namespace UidInvariant

variable {fresh : Nat → String} {state : UidState}

theorem init (store : ObjectStore) : UidInvariant fresh ⟨store, 0, []⟩ := ⟨by simp, by simp⟩

theorem append (injective : Function.Injective fresh) (inv : UidInvariant fresh state)
    (store : ObjectStore) (object : Value) (revision : Nat) {minted n : Nat}
    (later : state.minted ≤ n) (before : n < minted) (uid : uidOf object = some (fresh n)) :
    UidInvariant fresh ⟨store, minted, state.created ++ [⟨object, revision⟩]⟩ := by
  constructor
  · refine forall_mem_concat (fun other old => ?_) ⟨n, before, uid⟩
    have ⟨m, bound, named⟩ := inv.generated other old
    exact ⟨m, Nat.lt_trans bound (Nat.lt_of_le_of_lt later before), named⟩
  · rw [pairwise_append]
    refine ⟨inv.distinct, pairwise_singleton _ _, ?_⟩
    intro other old last new same
    have ⟨m, bound, named⟩ := inv.generated other old
    rw [mem_singleton.mp new, uid, named] at same
    have equal : m = n := injective (some.inj same)
    omega

end UidInvariant

theorem UidState.create_invariant {fresh : Nat → String} (injective : Function.Injective fresh)
    {state after : UidState} {api : Api} {codec : Patch.Codec} {given : Creation}
    {request : CreateRequest} (inv : UidInvariant fresh state)
    (left : state.uidsLeft fresh (.create api codec given request) = true)
    (taken : state.step fresh (.create api codec given request) = some after) :
    UidInvariant fresh after := by
  have ⟨⟨key, store⟩, performed, done⟩ := bind_eq_some_iff.mp taken
  have performs : request.perform api codec (state.mint fresh given) state.store =
      .ok (key, store) := toOption_eq_some.mp performed
  have ⟨name, draft, obj, drafted, made, _, _, written⟩ := perform_ok performs
  have plain : (carriedUid draft).isNone = true ∧
      request.uidLeft api (state.mint fresh given) name draft = true := by
    have drafted' : request.draft codec given.suffix = .ok (name, draft) := drafted
    simpa [uidsLeft, drafted'] using left
  have uid : uidOf obj = some (fresh state.minted) ∨ uidOf obj = some (fresh (state.minted + 1)) :=
    object_uid made (draft_isObject drafted)
      (isNone_iff_eq_none.mp plain.1) plain.2
  rw [← storedForm_uid api.rules.canonical (metricResource key)] at uid
  rw [← some.inj done, written, ObjectStore.write_entries_self, toList_some]
  rcases uid with first | second
  · exact inv.append injective _ _ _ le_rfl (Nat.lt_add_of_pos_right (by decide)) first
  · exact inv.append injective _ _ _ (Nat.le_succ _) (Nat.lt_succ_self _) second

end Rustkube
