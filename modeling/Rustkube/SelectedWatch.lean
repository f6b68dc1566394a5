import Rustkube.WatchCache
import Rustkube.WatchResponse

namespace Rustkube.Watch

open Change WatchCache EventStore Function List Option Text Json Storage ListSelector

variable {obj : Value}

section

variable {requirement : FieldRequirement}

theorem parsed_value {selector : String}
    (parsed : requirement ∈ parseFieldSelector selector) :
    ',' ∉ requirement.value.toList := by
  unfold parseFieldSelector at parsed
  split_ifs at parsed
  · simp at parsed
  · have ⟨part, inside, isPart⟩ := mem_filterMap.mp parsed
    obtain ⟨raw, isRaw, rfl⟩ := List.mem_map.mp (mem_filter.mp inside).1
    have plain : ',' ∉ (ListSelector.trim raw).toList := fun member =>
      not_mem_split isRaw (mem_trimMatches member)
    have value {field value : String} {pattern : String}
        (found : around (ListSelector.trim raw) pattern = some (field, value)) :
        ',' ∉ (ListSelector.trim value).toList := fun member =>
      plain (around_after found (mem_trimMatches member))
    unfold parseOneField at isPart
    split at isPart
    · rename_i field found isFound
      cases isPart
      exact value isFound
    · rename_i field found _ isFound
      cases isPart
      exact value isFound
    · simp at isPart

def Options.requirements (opts : Options) : List FieldRequirement :=
  (opts.fieldSelector.map ListSelector.parseFieldSelector).getD []

theorem Options.requirements_value {opts : Options}
    (given : requirement ∈ opts.requirements) : ',' ∉ requirement.value.toList := by
  unfold requirements at given
  cases selector : opts.fieldSelector with
  | none => simp [selector] at given
  | some text =>
    rw [selector] at given
    exact parsed_value given

/-- No field requirement is on `metadata.resourceVersion`. -/
def Options.Versionless (opts : Options) : Prop :=
  ∀ requirement ∈ opts.requirements, requirement.field ≠ "metadata.resourceVersion"

/-- An object as it is written to the datastore, its version stripped. Where a request selects on
the text of the whole metadata, that is the metadata of an object with a name and a uid. -/
structure Stored (opts : Options) (obj : Value) : Prop where
  isObject : obj.isObject = true
  version : obj["metadata"].get? "resourceVersion" = none
  whole : ∀ requirement ∈ opts.requirements, requirement.field = "metadata" →
    (obj["metadata"].get? "name").isSome = true ∧ (obj["metadata"].get? "uid").isSome = true

/-- serde_json writes a comma between the fields of an object. -/
def CommaSeparated (display : Value → String) : Prop :=
  ∀ fields : Fields, 2 ≤ fields.length → ',' ∈ (display (.object fields)).toList

variable {display : Value → String}

theorem display_comma (commas : CommaSeparated display) {metadata : Value}
    (name : (metadata.get? "name").isSome = true) (uid : (metadata.get? "uid").isSome = true) :
    ',' ∈ (display metadata).toList := by
  cases metadata with
  | object fields =>
    refine commas fields ?_
    rw [Value.get?_object, Fields.get?] at name uid
    rcases fields with _ | ⟨⟨field, value⟩, _ | ⟨second, rest⟩⟩
    · simp at name
    · by_cases isName : field = "name"
      · subst isName
        simp [lookup_cons] at uid
      · have other : ("name" == field) = false := by simpa using Ne.symm isName
        simp [lookup_cons, other] at name
    · simp
  | _ => simp [Value.get?, Value.asObject?] at name

theorem fieldText_object {value : Value} (shape : value.isObject = true) :
    fieldText display value = some (display value) := by
  obtain ⟨fields, rfl⟩ := Value.isObject_iff.mp shape
  rfl

theorem get_metadata (shape : obj["metadata"].isObject = true) :
    obj.get? "metadata" = some obj["metadata"] := by
  rw [Value.index_eq] at shape ⊢
  cases found : obj.get? "metadata" with
  | none => simp [found, Value.isObject, Value.asObject?] at shape
  | some metadata => rfl

theorem inject_eq (shape : obj["metadata"].isObject = true) (revision : Nat) :
    injectResourceVersion obj revision =
      obj.insert "metadata"
          (obj["metadata"].insert "resourceVersion" (.string (toString revision))) := by
  unfold injectResourceVersion
  rw [get_metadata shape]
  simp [shape]

theorem inject_unchanged (shape : obj["metadata"].isObject = false) (revision : Nat) :
    injectResourceVersion obj revision = obj := by
  unfold injectResourceVersion
  rw [Value.index_eq] at shape
  cases found : obj.get? "metadata" with
  | none => rfl
  | some metadata =>
    rw [found, getD_some] at shape
    simp [shape]

theorem inject_isObject (revision : Nat) :
    (injectResourceVersion obj revision).isObject = obj.isObject := by
  cases shape : obj["metadata"].isObject with
  | true => rw [inject_eq shape, Value.isObject_insert]
  | false => rw [inject_unchanged shape]

variable {opts : Options}

theorem holds_injected (commas : CommaSeparated display) (stored : Stored opts obj) (revision : Nat)
    (given : requirement ∈ opts.requirements)
    (elsewhere : requirement.field ≠ "metadata.resourceVersion") :
    requirement.holds display (injectResourceVersion obj revision) =
      requirement.holds display obj := by
  cases shape : obj["metadata"].isObject with
  | false => rw [inject_unchanged shape]
  | true =>
    have differs {text : String} (comma : ',' ∈ text.toList) :
        (text == requirement.value) = false := by
      rw [beq_eq_false_iff_ne]
      rintro rfl
      exact Options.requirements_value given comma
    rw [inject_eq shape]
    set injected :=
      obj["metadata"].insert "resourceVersion" (.string (toString revision)) with isInjected
    have outside {name : String} (other : name ≠ "metadata") :
        (obj.insert "metadata" injected).get? name = obj.get? name :=
      Value.get?_insert_of_ne other
    have inside : (obj.insert "metadata" injected).get? "metadata" = some injected :=
      Value.get?_insert_self stored.isObject
    unfold FieldRequirement.holds resolveField
    rw [outside (by decide)]
    by_cases source : requirement.field = "source" ∧ (obj.get? "source").any Value.isObject = true
    · simp only [source, and_self, if_true, walk,
        outside (by decide : "source" ≠ "metadata")]
    · simp only [if_neg source]
      cases split : Text.split requirement.field '.' with
      | nil => simp [Text.split, splitChars_ne_nil] at split
      | cons first others =>
        by_cases isMetadata : first = "metadata"
        · subst isMetadata
          simp only [walk, inside, get_metadata shape, bind_some]
          cases others with
          | nil =>
            have isWhole : requirement.field = "metadata" := split_injective '.' split
            obtain ⟨name, uid⟩ := stored.whole requirement given isWhole
            have injectedShape : injected.isObject = true := by
              rw [isInjected, Value.isObject_insert, shape]
            have comma : ',' ∈ (display injected).toList := by
              refine display_comma commas ?_ ?_
              · rw [isInjected, Value.get?_insert_of_ne (by decide)]
                exact name
              · rw [isInjected, Value.get?_insert_of_ne (by decide)]
                exact uid
            simp only [walk, bind_some, fieldText_object shape,
              fieldText_object injectedShape, getD_some, differs comma,
              differs (display_comma commas name uid)]
          | cons second rest =>
            by_cases isVersion : second = "resourceVersion"
            · subst isVersion
              cases rest with
              | nil => exact absurd (split_injective '.' split) elsewhere
              | cons third rest =>
                -- The version that is put in is a string and has no fields.
                simp only [walk, isInjected, Value.get?_insert_self shape,
                  stored.version, bind_some, bind_none]
                rfl
            · simp only [walk, isInjected, Value.get?_insert_of_ne isVersion]
        · simp only [walk, outside isMetadata]

variable {text : JsonText}

theorem matches_injected (commas : CommaSeparated text.display) (versionless : opts.Versionless)
    (stored : Stored opts obj) (revision : Nat) :
    opts.matches text (injectResourceVersion obj revision) = opts.matches text obj := by
  unfold Options.matches matchesSelectors
  have labels : (injectResourceVersion obj revision)["metadata"]["labels"] =
      obj["metadata"]["labels"] := by
    cases shape : obj["metadata"].isObject with
    | false => rw [inject_unchanged shape]
    | true =>
      rw [inject_eq shape, Value.index_insert_self stored.isObject, Value.index_insert_of_ne
        (by decide)]
  rw [labels]
  have fields : matchesFieldSelector text.display (injectResourceVersion obj revision)
      opts.requirements = matchesFieldSelector text.display obj opts.requirements := by
    rw [matchesFieldSelector, matchesFieldSelector, Bool.eq_iff_iff,
      List.all_eq_true, List.all_eq_true]
    refine forall₂_congr fun requirement given => ?_
    rw [holds_injected commas stored revision given (versionless requirement given)]
  exact congrArg (_ && ·) fields

end

section

def namespaceToProject (ns : Value) : Value :=
  .object [("apiVersion", .string "project.openshift.io/v1"), ("kind", .string "Project"),
    ("metadata", ns["metadata"].remove "namespace"),
    ("spec", .object [("finalizers", ns["spec"]["finalizers"])]), ("status", ns["status"])]

/-- Moves a field, if it is there. -/
def rename (fields : Fields) (source target : String) : Fields :=
  match fields.get? source with
  | some value => (fields.remove source).insert target value
  | none => fields

/-- The reporting controller and instance of an event, from its component and its source. -/
def reporting (source : Option Value) (fields : Fields) : Fields :=
  let fields :=
    if (fields.get? "reportingController").isSome then fields
    else
      let rest := fields.remove "reportingComponent"
      match (fields.get? "reportingComponent").filter (!·.isNull) with
      | some component => rest.insert "reportingController" component
      | none =>
        match source.bind (·.get? "component") with
        | some component => rest.insert "reportingController" component
        | none => rest
  if (fields.get? "reportingInstance").isSome then fields
  else match source.bind (·.get? "host") with
    | some host => fields.insert "reportingInstance" host
    | none => fields

/-- The `events.k8s.io/v1` form of a stored core event. -/
def coreToEvents (event : Value) : Value :=
  event.mapObject fun fields =>
    let fields := (fields.insert "apiVersion" (.string "events.k8s.io/v1")).insert "kind"
      (.string "Event")
    let fields := rename (rename fields "involvedObject" "regarding") "message" "note"
    let source := fields.get? "source"
    let fields := reporting source (fields.remove "source")
    let fields := match source with
      | some source => fields.insert "deprecatedSource" source
      | none => fields
    rename (rename (rename fields "firstTimestamp" "deprecatedFirstTimestamp")
      "lastTimestamp" "deprecatedLastTimestamp") "count" "deprecatedCount"

/-- An object is shown as an object. The transformations that the handlers ask for do that. -/
def ShowsObjects (transform : Value → Value) : Prop :=
  ∀ obj : Value, obj.isObject = true → (transform obj).isObject = true

variable {opts : Options}

theorem handlers_show
    (asked : opts.transform ∈ [none, some namespaceToProject, some coreToEvents]) :
    ∀ transform ∈ opts.transform, ShowsObjects transform := by
  intro transform given obj shape
  obtain ⟨fields, rfl⟩ := Value.isObject_iff.mp shape
  rw [mem_def.mp given] at asked
  simp only [mem_cons, reduceCtorEq, some.injEq, not_mem_nil, or_false, false_or] at asked
  rcases asked with rfl | rfl
  · rfl
  · rfl

theorem backfill_some (shows : ∀ transform ∈ opts.transform, ShowsObjects transform)
    (shape : obj.isObject = true) : ∃ object, opts.backfill (opts.project obj) = some object := by
  have projected : (opts.project obj).isObject = true := by
    unfold Options.project
    cases given : opts.transform with
    | none =>
      split_ifs
      · rfl
      · exact shape
    | some transform =>
      split_ifs
      · rfl
      · exact shows transform given obj shape
  unfold Options.backfill
  split_ifs
  · obtain ⟨versioned, isVersioned⟩ := Value.assign_of_isObject projected
    obtain ⟨object, isObject⟩ := Value.assign_of_isObject (Value.assign_isObject isVersioned)
    exact ⟨object, by rw [isVersioned]; exact isObject⟩
  · exact ⟨_, rfl⟩

end

section

/-- What a client holds: the objects it was shown, each under the key it is of. -/
abbrev Client := String → Option Value

/-- A client puts away an object that is added or modified and drops one that is deleted. -/
def Client.take (client : Client) (key : String) : Rendered → Client
  | .line ⟨.added, object⟩ => Function.update client key (some object)
  | .line ⟨.modified, object⟩ => Function.update client key (some object)
  | .line ⟨.deleted, _⟩ => Function.update client key none
  | _ => client

variable (text : JsonText) (opts : Options)

def Client.follow (client : Client) (event : WatchEvent) : Client :=
  match event with
  | .added key _ _ => client.take key (renderEvent text opts event)
  | .modified key _ _ _ => client.take key (renderEvent text opts event)
  | .deleted key _ _ => client.take key (renderEvent text opts event)
  | _ => client

/-- The object of a key, as it is shown, where the request selects it. -/
def Options.shown (kv : KeyValue) : Option Value := do
  let obj ← text.parse kv.value
  let obj := injectResourceVersion obj kv.modRevision
  if opts.matches text obj then opts.backfill (opts.project obj) else none

/-- The objects that the request selects from a datastore. -/
def Options.selection (space : Keyspace) : Client :=
  fun key => (space.get? key).bind (opts.shown text)

variable {text opts}

theorem selection_insert (space : Keyspace) (kv : KeyValue) :
    opts.selection text (space.insert kv) =
      update (opts.selection text space) kv.key (opts.shown text kv) := by
  funext key
  rw [update_apply, Options.selection, Keyspace.get?_insert]
  split_ifs <;> rfl

theorem selection_remove (space : Keyspace) (removed : String) :
    opts.selection text (space.remove removed) =
      update (opts.selection text space) removed none := by
  funext key
  rw [update_apply, Options.selection, Keyspace.get?_remove]
  split_ifs <;> rfl

end

variable (text : JsonText) (opts : Options)

/-- A value of the datastore is the text of a stored object. -/
def Decodes (value : Bytes) : Prop := ∃ obj, text.parse value = some obj ∧ Stored opts obj

/-- What is assumed of one request and of serde_json. -/
structure Faithful : Prop where
  commas : CommaSeparated text.display
  versionless : opts.Versionless
  shows : ∀ transform ∈ opts.transform, ShowsObjects transform

variable {text opts}

/-- The values of a datastore are texts of stored objects. -/
def Holding (text : JsonText) (opts : Options) (space : Keyspace) : Prop :=
  ∀ key kv, space.get? key = some kv → Decodes text opts kv.value

variable {space : Keyspace} {key : String} {value : Bytes} {revision : Nat}

section

variable (faithful : Faithful text opts) {before : KeyValue}

include faithful

theorem shown_eq {kv : KeyValue} (parsed : text.parse kv.value = some obj)
    (stored : Stored opts obj) : opts.shown text kv = if opts.matches text obj
      then opts.backfill (opts.project (injectResourceVersion obj kv.modRevision)) else none := by
  unfold Options.shown
  rw [parsed, bind_eq_bind, bind_some]
  dsimp only
  rw [matches_injected faithful.commas faithful.versionless stored]

theorem objectLine_eq (stored : Stored opts obj) (type : LineType) (revision : Nat) :
    ∃ object, opts.backfill (opts.project (injectResourceVersion obj revision)) = some object ∧
      opts.objectLine type (injectResourceVersion obj revision) = .line ⟨type, object⟩ := by
  have shape : (injectResourceVersion obj revision).isObject = true := by
    rw [inject_isObject, stored.isObject]
  have ⟨object, backfilled⟩ := backfill_some faithful.shows shape
  refine ⟨object, backfilled, ?_⟩
  rw [Options.objectLine, backfilled]

theorem follow_added (decodes : Decodes text opts value) (absent : space.get? key = none) :
    (opts.selection text space).follow text opts (.added key value revision) =
      update (opts.selection text space) key (opts.shown text ⟨key, value, revision⟩) := by
  have ⟨obj, parsed, stored⟩ := decodes
  have nothing : opts.selection text space key = none := by rw [Options.selection, absent]; rfl
  rw [shown_eq faithful parsed stored]
  simp only [Client.follow, renderEvent, parsed, getD_some,
    matches_injected faithful.commas faithful.versionless stored]
  have ⟨object, backfilled, isLine⟩ := objectLine_eq faithful stored .added revision
  cases selected : opts.matches text obj with
  | true => simp only [if_true, isLine, backfilled, Client.take]
  | false =>
    simp only [Bool.false_eq_true, if_false, Client.take]
    rw [← nothing, update_eq_self]

/-- A write to an object brings it in, takes it out, changes it in place or leaves it outside. -/
theorem follow_modified (decodes : Decodes text opts value)
    (held : space.get? key = some before) (decodesBefore : Decodes text opts before.value) :
    (opts.selection text space).follow text opts
      (.modified key value revision (some before.value)) =
      update (opts.selection text space) key (opts.shown text ⟨key, value, revision⟩) := by
  have ⟨obj, parsed, stored⟩ := decodes
  have ⟨old, parsedBefore, storedBefore⟩ := decodesBefore
  have current : opts.selection text space key = opts.shown text before := by
    rw [Options.selection, held]
    rfl
  rw [shown_eq faithful parsedBefore storedBefore] at current
  rw [shown_eq faithful parsed stored]
  simp only [Client.follow, renderEvent, parsed, parsedBefore, getD_some, bind_some,
    map_some, matches_injected faithful.commas faithful.versionless stored]
  cases now : opts.matches text obj with
  | true =>
    cases was : opts.matches text old with
    | true =>
      have ⟨object, backfilled, isLine⟩ := objectLine_eq faithful stored .modified revision
      simp only [modification, if_true, isLine, backfilled, Client.take]
    | false =>
      have ⟨object, backfilled, isLine⟩ := objectLine_eq faithful stored .added revision
      simp only [modification, if_true, isLine, backfilled, Client.take]
  | false =>
    cases was : opts.matches text old with
    | true =>
      have ⟨object, backfilled, isLine⟩ := objectLine_eq faithful stored .deleted revision
      simp only [modification, Bool.false_eq_true, if_false, isLine, Client.take]
    | false =>
      rw [was] at current
      simp only [modification, Bool.false_eq_true, if_false, Client.take]
      rw [if_neg Bool.false_ne_true] at current
      rw [← current, update_eq_self]

theorem follow_deleted (held : space.get? key = some before)
    (decodesBefore : Decodes text opts before.value) :
    (opts.selection text space).follow text opts (.deleted key revision (some before.value)) =
      update (opts.selection text space) key none := by
  have ⟨old, parsedBefore, storedBefore⟩ := decodesBefore
  have current : opts.selection text space key = opts.shown text before := by
    rw [Options.selection, held]
    rfl
  rw [shown_eq faithful parsedBefore storedBefore] at current
  have isOld : ((some before.value).bind text.parse).filter Value.isObject = some old := by
    simp [parsedBefore, storedBefore.isObject]
  simp only [Client.follow, renderEvent, isOld,
    matches_injected faithful.commas faithful.versionless storedBefore]
  have ⟨object, backfilled, isLine⟩ := objectLine_eq faithful storedBefore .deleted revision
  cases was : opts.matches text old with
  | true => simp only [if_true, isLine, Client.take]
  | false =>
    rw [was, if_neg Bool.false_ne_true] at current
    simp only [Bool.false_eq_true, if_false, Client.take]
    rw [← current, update_eq_self]

theorem follow_change (holding : Holding text opts space) {change : Change}
    (decodes : ∀ value ∈ change.value, Decodes text opts value) :
    (opts.selection text space).follow text opts (record space (change.event space)).2 =
      opts.selection text (change.apply space) := by
  unfold event apply
  cases written : change.value with
  | none =>
    rw [selection_remove]
    dsimp only [record]
    cases held : space.get? change.key with
    -- Nothing was there: the line is made from the key, and nothing is dropped.
    | none => rfl
    | some before => exact follow_deleted faithful held (holding _ before held)
  | some value =>
    rw [selection_insert]
    cases held : space.get? change.key with
    | none => exact follow_added faithful (decodes value written) held
    | some before =>
      simp only [isSome_some, if_true, record, held, map_some, none_or]
      exact follow_modified faithful (decodes value written) held (holding _ before held)

end

theorem holding_change (holding : Holding text opts space) {change : Change}
    (decodes : ∀ value ∈ change.value, Decodes text opts value) :
    Holding text opts (change.apply space) := by
  intro key kv found
  unfold apply at found
  cases written : change.value with
  | none =>
    rw [written, Keyspace.get?_remove] at found
    split_ifs at found
    exact holding key kv found
  | some value =>
    rw [written, Keyspace.get?_insert] at found
    split_ifs at found with same
    · cases found
      exact decodes value written
    · exact holding key kv found

/-- The events as the pump passes them on, each with the state that it replaces. -/
def pumped (snapshot : Keyspace) : List WatchEvent → List WatchEvent
  | [] => []
  | event :: rest =>
    (WatchCache.record snapshot event).2 :: pumped (WatchCache.record snapshot event).1 rest

/-- Writes after the first revision, up to the second. -/
def within (first last : Nat) (event : WatchEvent) : Bool :=
  first < event.revision && event.revision ≤ last

theorem pumped_events (space : Keyspace) (change : Change) (rest : List Change) :
    pumped space (events space (change :: rest)) =
      (record space (change.event space)).2 ::
        pumped (change.apply space) (events (change.apply space) rest) := by
  rw [events, pumped, record_snapshot]

variable {changes : List Change}

theorem pumped_newer {last : Nat}
    (newer : ∀ change ∈ changes, last < change.revision) (space : Keyspace) (first : Nat) :
    (pumped space (events space changes)).filter (within first last) = [] := by
  induction changes generalizing space with
  | nil => rfl
  | cons change rest ih =>
    have beyond := newer change mem_cons_self
    rw [pumped_events, filter_cons_of_neg, ih fun later member =>
      newer later (mem_cons_of_mem change member)]
    simp [within]
    omega

/-- The run of a client from one revision to another, over all that the pump has passed on. -/
theorem follow_pumped (faithful : Faithful text opts) {first last : Nat} (order : first ≤ last)
    (increasing : changes.Pairwise fun earlier later => earlier.revision < later.revision)
    (decodes : ∀ change ∈ changes, ∀ value ∈ change.value, Decodes text opts value)
    (holding : Holding text opts space) :
    ((pumped space (events space changes)).filter (within first last)).foldl
        (Client.follow text opts)
        (opts.selection text ((changes.filter (·.revision ≤ first)).foldl
          (fun space change => change.apply space) space)) =
      opts.selection text ((changes.filter (·.revision ≤ last)).foldl
        (fun space change => change.apply space) space) := by
  induction changes generalizing space with
  | nil => rfl
  | cons change rest ih =>
    have ⟨behind, sorted⟩ := pairwise_cons.mp increasing
    have decodesChange := decodes change mem_cons_self
    have next := ih sorted (fun later member => decodes later (mem_cons_of_mem change member))
      (holding_change holding decodesChange)
    by_cases beyond : last < change.revision
    · -- Past the last revision: neither the client nor the datastore has moved.
      have newer := newer_cons behind beyond
      have newerFirst : ∀ later ∈ change :: rest, first < later.revision := fun later member =>
        Nat.lt_of_le_of_lt order (newer later member)
      rw [pumped_newer newer, filter_newer newer, filter_newer newerFirst]
      rfl
    · have upTo : change.revision ≤ last := Nat.le_of_not_lt beyond
      have inLast : (change :: rest).filter (fun other => decide (other.revision ≤ last)) =
          change :: rest.filter (fun other => decide (other.revision ≤ last)) :=
        filter_cons_of_pos (by simpa using upTo)
      rw [pumped_events, inLast, foldl_cons]
      by_cases old : change.revision ≤ first
      · have inFirst : (change :: rest).filter (fun other => decide (other.revision ≤ first)) =
            change :: rest.filter (fun other => decide (other.revision ≤ first)) :=
          filter_cons_of_pos (by simpa using old)
        have outside : ¬ within first last (record space (change.event space)).2 = true := by
          simp [within]
          omega
        rw [filter_cons_of_neg outside, inFirst, foldl_cons]
        exact next
      · have newer : ∀ later ∈ rest, first < later.revision := fun later member =>
          Nat.lt_trans (Nat.lt_of_not_le old) (behind later member)
        have newerFirst := newer_cons behind (Nat.lt_of_not_le old)
        have inside : within first last (record space (change.event space)).2 = true := by
          simp [within]
          omega
        rw [filter_newer newer] at next
        rw [filter_cons_of_pos inside, filter_newer newerFirst, foldl_cons,
          foldl_nil, follow_change faithful holding decodesChange]
        exact next

theorem holding_replay
    (decodes : ∀ change ∈ changes, ∀ value ∈ change.value, Decodes text opts value)
    (holding : Holding text opts space) :
    Holding text opts (changes.foldl (fun space change => change.apply space) space) := by
  induction changes generalizing space with
  | nil => exact holding
  | cons change rest ih =>
    exact ih (fun later member => decodes later (mem_cons_of_mem change member))
      (holding_change holding (decodes change (.head _)))

/-- A watch with selectors, through a cache whose pump has listed at `seed` and passes on every
write since: from the objects that the request selects at the revision it starts from, the lines of
the response lead to the objects that it selects at any later one. -/
theorem selected_watch_tracks (faithful : Faithful text opts) (store : EventStore)
    (decodes : ∀ change ∈ store.log, ∀ value ∈ change.value, Decodes text opts value)
    {seed start revision : Nat} (seeded : seed ≤ start) (later : start ≤ revision) :
    ((pumped (store.contentAt seed)
    (Change.events (store.contentAt seed) (store.since seed))).filter
        (within start revision)).foldl (Client.follow text opts)
        (opts.selection text (store.contentAt start)) =
      opts.selection text (store.contentAt revision) := by
  rw [store.contentAt_since seeded, store.contentAt_since (Nat.le_trans seeded later)]
  refine follow_pumped faithful later (store.increasing.filter _) ?_ ?_
  · intro change member
    exact decodes change (mem_filter.mp member).1
  · refine holding_replay (fun change member => decodes change (mem_filter.mp member).1) ?_
    intro key kv found
    simp [Keyspace.get?, Keyspace.empty] at found

/-- Two states of one pod. -/
def samplePod (app : String) : Value :=
  .object [("kind", .string "Pod"),
    ("metadata", .object [("labels", .object [("app", .string app)]), ("name", .string "a")])]

/-- Such a pod as it is stored. -/
def podBytes (app : String) : Bytes :=
  Text.utf8 ("\x7b\"kind\":\"Pod\",\"metadata\":\x7b\"labels\":\x7b\"app\":\"" ++ app ++
    "\"\x7d,\"name\":\"a\"\x7d\x7d")

def podText : JsonText where
  parse bytes := (["web", "db"].find? fun app => bytes = podBytes app).map samplePod
  display _ := ","

def webPods : Options :=
  ⟨some "app=web", some "metadata.name=a", "v1", "Pod", false, false, none, none, false⟩

/-- A pod that goes out of the selection, comes back and is deleted. -/
def podLog : EventStore :=
  [some (podBytes "web"), some (podBytes "db"), some (podBytes "web"), none].foldl
    (fun store value => store.write "/registry/pods/ns/a" value) (.untouched 5)

theorem webPods_faithful : Faithful podText webPods where
  commas _ _ := (by decide : ',' ∈ ",".toList)
  versionless := by
    unfold Options.Versionless
    decide
  shows := handlers_show (by simp [webPods])

theorem podText_decodes {value : Bytes} (read : (podText.parse value).isSome = true) :
    Decodes podText webPods value := by
  have ⟨_, parsed⟩ := Option.isSome_iff_exists.mp read
  obtain ⟨app, _, rfl⟩ := Option.map_eq_some_iff.mp parsed
  refine ⟨_, parsed, rfl, rfl, ?_⟩
  have elsewhere : ∀ requirement ∈ webPods.requirements, requirement.field ≠ "metadata" := by decide
  intro requirement given whole
  exact absurd whole (elsewhere requirement given)

theorem selected_watch_tracks_pod :
    (webPods.selection podText (podLog.contentAt 6) "/registry/pods/ns/a").isSome = true ∧
      webPods.selection podText (podLog.contentAt 7) "/registry/pods/ns/a" = none ∧
      ((pumped (podLog.contentAt 5) (Change.events (podLog.contentAt 5) (podLog.since 5))).filter
          (within 6 8)).foldl (Client.follow podText webPods)
          (webPods.selection podText (podLog.contentAt 6)) =
        webPods.selection podText (podLog.contentAt 8) := by
  have read : podLog.log.all (·.value.all (podText.parse · |>.isSome)) = true := by decide +kernel
  refine ⟨by decide +kernel, by decide +kernel, selected_watch_tracks webPods_faithful podLog
    (fun change member value given => podText_decodes ?_) (by decide) (by decide)⟩
  have whole := all_eq_true.mp read change member
  rwa [given] at whole

end Rustkube.Watch
