import Rustkube.AdmittedObject
import Rustkube.ObjectWrite
import Rustkube.Lib.Tally

/- What a write of `/status` can change besides the status, and what a merge patch makes of the
status. -/
namespace Rustkube

open List Option Quantity Json Storage

/-- The fields of `metadata` that a write of `/status` may change. -/
def LANE : List String := ["labels", "annotations", "generation", "resourceVersion"]

/-- The fields of `metadata` that the server puts back. -/
def OWNED : List String := ["name", "namespace", "uid", "creationTimestamp"]

/-- `after` has the fields of `before`, the status apart, and of `metadata` those that are
`right`. -/
structure Keeps (right : String → Prop) (before after : Value) : Prop where
  fields : ∀ field, field ≠ "status" → field ≠ "metadata" → after[field] = before[field]
  metadata : ∀ field, right field → after["metadata"][field] = before["metadata"][field]

/-- The objects are the same but for the status, the labels, the annotations and the version. -/
abbrev InLane : Value → Value → Prop := Keeps (· ∉ LANE)

/-- The object is as the server stores it: its name and quantities are strings, a Secret has no
`stringData`, and what the server decides of the spec of a Namespace or a Service is there. -/
structure Settled (rules : KindRules) (key : String) (object : Value) : Prop where
  named : object["metadata"]["name"].isString = true
  quantities : Quantity.numbersToStrings rules.canonical (metricResource key) object = object
  folded : Text.startsWith key "/registry/secrets/" = true → object["stringData"] = .null
  held : Text.startsWith key "/registry/namespaces/" = true → ∀ existing body kept : Value,
    existing["spec"] = object["spec"] → body["spec"] = object["spec"] →
    keepNamespaceFinalizers existing body = some kept → kept["spec"] = object["spec"]
  planned : Text.startsWith key "/registry/services/" = true → ∀ existing body spec : Value,
    existing["spec"] = object["spec"] → body["spec"] = object["spec"] →
    rules.servicePlan existing body = .ok spec → spec = object["spec"]

namespace Keeps

variable {right : String → Prop} {before middle after stored value : Value} {field : String}

theorem refl (value : Value) : Keeps right value value := ⟨fun _ _ _ => rfl, fun _ _ => rfl⟩

theorem trans (first : Keeps right before middle) (second : Keeps right middle after) :
    Keeps right before after where
  fields field notStatus notMetadata :=
    (second.fields field notStatus notMetadata).trans (first.fields field notStatus notMetadata)
  metadata field isRight := (second.metadata field isRight).trans (first.metadata field isRight)

theorem of_within {inner : List String} (frame : Value.Within "metadata" inner before after)
    (inside : ∀ field ∈ inner, ¬ right field) : Keeps right before after where
  fields field _ notMetadata := frame.outside field notMetadata
  metadata field isRight := frame.inside field fun member => inside field member isRight

theorem of_status (assigned : before.assign "status" value = some after) :
    Keeps right before after where
  fields _ notStatus _ := Value.assign_of_ne assigned notStatus
  metadata field _ := by rw [Value.assign_of_ne assigned (by decide)]

section

variable (lane : Keeps right before middle)

include lane

theorem mono {fewer : String → Prop} (weaker : ∀ field, fewer field → right field) :
    Keeps fewer before middle :=
      ⟨lane.fields, fun field isRight => lane.metadata field (weaker field isRight)⟩

/-- A field of `metadata` is written as it was. -/
theorem restore (same : value = before["metadata"][field])
    (assigned : middle.assignIn "metadata" field value = some after) :
    Keeps (fun other => right other ∨ other = field) before after where
  fields other notStatus notMetadata := by
    rw [Value.assignIn_of_ne assigned notMetadata, lane.fields other notStatus notMetadata]
  metadata other isRight := by
    by_cases here : other = field
    · rw [here, Value.assignIn_self assigned, same]
    · rw [Value.assignIn_inner_of_ne assigned here, lane.metadata other
        (isRight.resolve_right here)]

variable (reads : InLane before stored)

include reads

theorem carryStored (outside : field ∉ LANE)
    (carried : Rustkube.carryStored stored field middle = some after) :
    Keeps (fun other => right other ∨
      other = field ∧ before["metadata"][field].isString = true) before after := by
  unfold Rustkube.carryStored at carried
  have same := reads.metadata field outside
  rw [Value.index_eq] at same
  split at carried
  case h_1 value present =>
    rw [present, getD_some] at same
    split_ifs at carried with null
    · rw [← some.inj carried]
      refine lane.mono fun other isRight => isRight.resolve_right fun ⟨_, isString⟩ => ?_
      rw [← same] at isString
      cases value <;> simp_all [Value.isNull, Value.isString, Value.asStr?]
    · exact (lane.restore same carried).mono fun other => Or.imp_right And.left
  case h_2 absent =>
    rw [absent] at same
    rw [← some.inj carried]
    refine lane.mono fun other isRight => isRight.resolve_right fun ⟨_, isString⟩ => ?_
    rw [← same] at isString
    cases isString

theorem keepServerFields (named : before["metadata"]["name"].isString = true)
    (kept : keepServerFields middle stored (Api.nameOf stored) (Api.namespaceOf stored) =
      some after) :
    Keeps (fun field => right field ∨ field ∈ OWNED ∧ before["metadata"][field].isString = true)
      before after := by
  have ⟨opened, opens, kept⟩ := bind_eq_some_iff.mp kept
  have ⟨renamed, names, kept⟩ := bind_eq_some_iff.mp kept
  have ⟨placed, places, kept⟩ := bind_eq_some_iff.mp kept
  have ⟨owned, carries, kept⟩ := bind_eq_some_iff.mp kept
  have ⟨name, isName⟩ := isSome_iff_exists.mp named
  have lane := lane.trans (of_within (openMetadata_within opens) (by simp))
  have lane := lane.restore (by
    rw [Api.nameOf, reads.metadata "name" (by decide), isName, Value.asStr?_eq_some.mp isName]
    rfl) names
  have lane : Keeps (fun field => (right field ∨ field = "name") ∨ field = "namespace" ∧
      before["metadata"]["namespace"].isString = true) before placed := by
    have same : Api.namespaceOf stored = before["metadata"]["namespace"].asStr? :=
      congrArg Value.asStr? (reads.metadata "namespace" (by decide))
    cases isPlaced : Api.namespaceOf stored with
    | none =>
      rw [isPlaced] at places same
      rw [← some.inj places]
      refine lane.mono fun field isRight => isRight.resolve_right fun ⟨_, isString⟩ => ?_
      rw [Value.isString, ← same] at isString
      cases isString
    | some ns =>
      rw [isPlaced] at places same
      exact (lane.restore (Value.asStr?_eq_some.mp same.symm).symm places).mono
        fun field => Or.imp_right And.left
  refine ((lane.carryStored reads (by decide) carries).carryStored reads (by decide) kept).mono ?_
  rintro field (isRight | ⟨isOwned, isString⟩)
  · exact .inl (.inl (.inl (.inl isRight)))
  · simp only [OWNED, mem_cons, not_mem_nil, or_false] at isOwned
    rcases isOwned with rfl | rfl | rfl | rfl <;> simp [isString]

end

/-- Quantities are rewritten field by field, so the ones that are kept stay as they are stored. -/
theorem numbersToStrings {canonical : Value → String} {resource : String}
    (lane : Keeps right before after)
    (settled : Quantity.numbersToStrings canonical resource before = before) :
    Keeps right before (Quantity.numbersToStrings canonical resource after) := by
  unfold Quantity.numbersToStrings at settled ⊢
  split_ifs at settled ⊢ with kind
  · refine ⟨fun field notStatus notMetadata => ?_, fun field isRight => ?_⟩
    · rw [walk_index, lane.fields field notStatus notMetadata, ← walk_index, settled]
    · rw [walk_metadata, lane.metadata field isRight, ← walk_metadata, settled]
  · exact lane

section

variable {api : Api} {key : String} (reads : InLane before stored)

include reads

theorem builtinUpdate (settled : Settled api.rules key before) {subresource : Option String}
    {body : Value} (lane : Keeps right before body) (free : ¬ right "generation")
    (built : api.rules.builtinUpdate subresource key stored body = .ok after) :
    Keeps right before after := by
  have ⟨counted, counts, built⟩ := bind_eq_ok.mp built
  have ⟨kept, keeps, built⟩ := bind_eq_ok.mp built
  have ⟨_, _, built⟩ := bind_eq_ok.mp built
  have ⟨_, _, plans⟩ := bind_eq_ok.mp built
  have folded : Keeps right before (api.rules.foldSecret key body) := by
    have same := api.rules.foldSecret_unset fun secret =>
      (lane.fields "stringData" (by decide) (by decide)).trans (settled.folded secret)
    refine ⟨fun field notStatus notMetadata => ?_, fun field isRight => ?_⟩
    · rw [same, lane.fields field notStatus notMetadata]
    · rw [same, lane.metadata field isRight]
  have lane := (folded.numbersToStrings settled.quantities).trans
    (of_within (Generation.onUpdate_within (orPanic_eq_ok.mp counts)) (by simpa using free))
  have spec (value : Value) (frame : ∀ field, field ≠ "spec" → value[field] = counted[field])
      (same : value["spec"] = before["spec"]) : Keeps right before value := by
    refine ⟨fun field notStatus notMetadata => ?_, fun field isRight => ?_⟩
    · by_cases isSpec : field = "spec"
      · rw [isSpec, same]
      · rw [frame field isSpec, lane.fields field notStatus notMetadata]
    · rw [frame "metadata" (by decide), lane.metadata field isRight]
  have held : kept["spec"] = before["spec"] := by
    unfold KindRules.keepFinalizers at keeps
    split_ifs at keeps with isNamespace
    · exact settled.held isNamespace stored counted kept
        (reads.fields "spec" (by decide) (by decide))
        (lane.fields "spec" (by decide) (by decide)) (orPanic_eq_ok.mp keeps)
    · rw [← some.inj (orPanic_eq_ok.mp keeps), lane.fields "spec" (by decide) (by decide)]
  refine spec after (fun field other => ?_) ?_
  · rw [KindRules.planService_index plans other,
      KindRules.keepFinalizers_index (orPanic_eq_ok.mp keeps) other]
  · unfold KindRules.planService at plans
    split_ifs at plans with isService
    · have ⟨planned, plan, written⟩ := bind_eq_ok.mp plans
      rw [Value.assign_self (orPanic_eq_ok.mp written)]
      exact settled.planned isService stored kept planned
        (reads.fields "spec" (by decide) (by decide)) held (orFail_eq_ok.mp plan)
    · rw [← pure_eq_ok.mp plans, held]

/-- What the webhooks hand back in the lane leaves admission in it. -/
theorem admitted {shown asked answer : Value} (shows : InLane before shown)
    (answers : Admission.handedBack api.world api.request .update shown (some stored) = .ok answer)
    (answered : InLane before answer)
    (asks : api.admitWrite .update shown (some stored) = .ok asked) : InLane before asked := by
  have ⟨admitted, ran, done⟩ := bind_eq_ok.mp asks
  have ⟨other, result, back, isResult, finished⟩ := Admission.admit_cases ran
  cases (Except.ok.inj (answers.symm.trans back))
  rw [← pure_eq_ok.mp done, isResult, getD_some]
  have settles (attrs : RequestAttrs) (settled : Value)
      (after : Admission.afterMutating attrs .update (some stored) answer = .ok settled) :
      InLane before settled := by
    refine ⟨fun field notStatus notMetadata => ?_, fun field outside => ?_⟩
    · rcases Admission.afterMutating_index after notMetadata notStatus with same | same
      · rw [same, answered.fields field notStatus notMetadata]
      · rw [same, reads.fields field notStatus notMetadata]
    · rw [Admission.afterMutating_metadata after (fun isList => outside (by rw [isList]; decide)),
        answered.metadata field outside]
  rcases finished with rfl | ⟨attrs, -, settled, after, rfl | rfl⟩
  · exact answered
  · exact settles attrs _ after
  · have lane := settles attrs settled after
    refine ⟨fun field notStatus notMetadata => ?_, fun field outside => ?_⟩
    · rw [Admission.keepIdentity_index _ _ notMetadata, lane.fields field notStatus notMetadata]
    · rcases Admission.keepIdentity_metadata shown settled field with same | ⟨-, same⟩
      · rw [same, lane.metadata field outside]
      · rw [same, shows.metadata field outside]

theorem sealUpdate {asked : Value} (named : before["metadata"]["name"].isString = true)
    (lane : InLane before asked)
    (finished : api.sealUpdate key stored asked = .ok after) : InLane before after := by
  have ⟨kept, first, rest⟩ := bind_eq_ok.mp finished
  have ⟨counted, second, last⟩ := bind_eq_ok.mp rest
  have lane : InLane before kept :=
    (lane.keepServerFields reads named (orPanic_eq_ok.mp first)).mono fun _ => .inl
  have counts : InLane kept counted :=
    of_within (Generation.onUpdate_within (orPanic_eq_ok.mp second)) (by decide)
  exact (lane.trans counts).trans (of_within (.of_assignIn (orPanic_eq_ok.mp last)) (by decide))

end

end Keeps

/-- The object that a patch leaves differs in what a write of `/status` may change, in the spec,
which is put back, and in what else the server puts back where the object has it. -/
structure PatchInLane (existing patched : Value) : Prop where
  fields : ∀ field, field ∉ ["spec", "status", "metadata"] → patched[field] = existing[field]
  metadata : ∀ field, field ∉ LANE → patched["metadata"][field] = existing["metadata"][field] ∨
    field ∈ OWNED ∧ existing["metadata"][field].isString = true

/-- A write of `/status`. A JSON patch, which is applied to the whole object, is in the lane. -/
def StatusWrite (codec : Patch.Codec) (existing : Value) : ObjectWrite → Prop
  | .putStatus _ => True
  | .patchStatus contentType body => Patch.Format.ofContentType contentType = .json →
    ∀ patched, Patch.applyJsonPatch codec existing body "" = .ok patched →
      PatchInLane existing patched
  | _ => False

variable {existing after patch : Value} {merge : Bool} {fields : Fields}

theorem statusWriteMetadata_inLane
    (written : statusWriteMetadata existing patch merge = some after) : InLane existing after :=
  .of_within (statusWriteMetadata_within written) (by decide)

theorem patchStatus_inLane {merge : Value → Value → Value}
    (written : patchStatus merge patch existing = some after) : InLane existing after := by
  unfold patchStatus at written
  split at written
  · have ⟨status, first, last⟩ := bind_eq_some_iff.mp written
    exact (Keeps.of_status first).trans (statusWriteMetadata_inLane last)
  · exact statusWriteMetadata_inLane written

theorem putStatus_inLane {body : Value} (mutated : putStatus body existing = .ok after) :
    InLane existing after := by
  have ⟨written, first, last⟩ := bind_eq_some_iff.mp (orPanic_eq_ok.mp mutated)
  refine .trans ?_ (statusWriteMetadata_inLane last)
  unfold writeStatus at first
  split at first
  · exact .of_status first
  · exact some.inj first ▸ .refl _

/-- Of what the server does not put back, a write of `/status` changes only what it may. -/
theorem StatusWrite.mutation {write : ObjectWrite} {api : Api} {codec : Patch.Codec}
    (status : StatusWrite codec existing write)
    (mutated : write.mutation api codec existing = .ok after) :
    Keeps (fun field => field ∉ LANE ∧
      ¬ (field ∈ OWNED ∧ existing["metadata"][field].isString = true)) existing after := by
  cases write with
  | putStatus body => exact (putStatus_inLane mutated).mono fun _ => And.left
  | patchStatus contentType body =>
    simp only [ObjectWrite.mutation, applyStatusPatch] at mutated
    cases format : Patch.Format.ofContentType contentType with
    | strategic | merge | apply =>
      simp only [format] at mutated
      have ⟨parsed, _, last⟩ := bind_eq_ok.mp mutated
      exact (patchStatus_inLane (orPanic_eq_ok.mp last)).mono fun _ => And.left
    | json =>
      simp only [format] at mutated
      have ⟨patched, applied, last⟩ := bind_eq_ok.mp mutated
      have lane := status format patched applied
      have back : after["spec"] = existing["spec"] ∧
          ∀ field, field ≠ "spec" → after[field] = patched[field] := by
        have written := orPanic_eq_ok.mp last
        unfold putSpecBack at written
        rw [Value.index_eq existing]
        cases spec : existing.get? "spec" with
        | some spec =>
          rw [spec] at written
          exact ⟨Value.assign_self written, fun _ other => Value.assign_of_ne written other⟩
        | none =>
          rw [spec] at written
          rw [← some.inj written]
          exact ⟨Value.index_remove_self, fun _ other => Value.index_remove_of_ne other⟩
      refine ⟨fun field notStatus notMetadata => ?_, fun field ⟨outside, notOwned⟩ => ?_⟩
      · by_cases isSpec : field = "spec"
        · rw [isSpec, back.1]
        · rw [back.2 field isSpec, lane.fields field (by simp [isSpec, notStatus, notMetadata])]
      · rw [back.2 "metadata" (by decide)]
        exact (lane.metadata field outside).resolve_right notOwned
  | put | patch | update => cases status

theorem StatusWrite.guaranteed {write : ObjectWrite} {codec : Patch.Codec}
    (status : StatusWrite codec existing write) (api : Api) (key name : String)
    (ns : Option String) :
    write.guaranteed = true ∧ write.shown api codec key name ns existing =
      api.showUpdate key (write.mutation api codec) existing := by
  cases write with
  | putStatus | patchStatus => exact ⟨rfl, rfl⟩
  | put | patch | update => cases status

open Patch

mutual

/-- Neither the value nor a member of it, at any depth, is `null`. A list is copied as a whole. -/
def nullFree : Value → Bool
  | .null => false
  | .object fields => nullFreeFields fields
  | _ => true

def nullFreeFields : List (String × Value) → Bool
  | [] => true
  | (_, value) :: rest => nullFree value && nullFreeFields rest

end

mutual

/-- The fields are in key order in every object that is merged, as serde_json has them. -/
def inOrder : Value → Bool
  | .object fields => fieldsInOrder fields
  | _ => true

def fieldsInOrder : List (String × Value) → Bool
  | [] => true
  | (key, value) :: rest =>
    (rest.all fun entry => key < entry.1) && inOrder value && fieldsInOrder rest

end

theorem get?_mergeJsonFields_of_absent {name : String} (into : Fields)
    (absent : fields.lookup name = none) :
    Fields.get? (mergeJsonFields into fields) name = Fields.get? into name := by
  induction fields generalizing into with
  | nil => simp [mergeJsonFields]
  | cons head rest ih =>
    have ⟨key, value⟩ := head
    by_cases apart : name = key
    · simp [apart] at absent
    · rw [lookup_cons_of_ne apart] at absent
      rw [mergeJsonFields, ih _ absent]
      exact Fields.get?_insert_of_ne apart

theorem insert_last {key : String} (value : Value)
    (above : ∀ entry ∈ fields, entry.1 < key) :
    Fields.insert key value fields = fields ++ [(key, value)] := by
  induction fields with
  | nil => rfl
  | cons head rest ih =>
    have ⟨first, others⟩ := forall_mem_cons.mp above
    rw [Fields.insert, if_neg (fun same => String.lt_irrefl _ (same ▸ first)),
      if_neg (String.lt_asymm first), ih others]
    rfl

/-- Fields in key order that are merged into smaller ones are appended. -/
theorem mergeJsonFields_eq_append {before : Fields} (ordered : fieldsInOrder fields = true)
    (below : ∀ entry ∈ before, ∀ later ∈ fields, entry.1 < later.1) :
    mergeJsonFields before fields = before ++ fields := by
  induction fields generalizing before with
  | nil => simp [mergeJsonFields]
  | cons head rest ih =>
    have ⟨key, value⟩ := head
    simp only [fieldsInOrder, Bool.and_eq_true, List.all_eq_true, decide_eq_true_eq] at ordered
    have smaller entry (member : entry ∈ before) : entry.1 < key := below entry member _ (.head _)
    have absent : Fields.get? before key = none := by
      rw [Fields.get?, lookup_eq_none_iff]
      intro entry member
      simpa using Ne.symm (String.ne_of_lt (smaller entry member))
    rw [mergeJsonFields, absent, insert_last _ smaller, ih ordered.2]
    · cases value <;> simp [mergeJson]
    · intro entry member later isLater
      rcases mem_append.mp member with old | new
      · exact below entry old later (.tail _ isLater)
      · rw [List.mem_singleton.mp new]
        exact ordered.1.1 later isLater

mutual

/-- `merge_json` is the merge of RFC 7386 on a document without `null` members, and on no other. -/
theorem mergeJson_eq_merge_iff : ∀ (src dst : Value), inOrder src = true →
    (mergeJson dst src = Patch.merge dst src ↔ src = .null ∨ nullFree src = true)
  | .object fields, dst, ordered => by
    have merged : mergeJson dst (.object fields) =
        .object (mergeJsonFields (dst.asObject?.getD []) fields) := by
      cases dst with
      | object into => simp [mergeJson, Value.asObject?]
      | _ => simp [mergeJson, Value.asObject?, mergeJsonFields_eq_append ordered]
    rw [merged, Patch.merge, Value.object.injEq, mergeJsonFields_eq_iff fields _ ordered]
    simp [nullFree]
  | .null, _, _ | .bool _, _, _ | .number _, _, _ | .float _, _, _ | .string _, _, _
  | .array _, _, _ => by simp [mergeJson, Patch.merge, nullFree]

theorem mergeJsonFields_eq_iff : ∀ (fields into : Fields), fieldsInOrder fields = true →
    (mergeJsonFields into fields = mergeFields into fields ↔ nullFreeFields fields = true)
  | [], into, _ => by simp [mergeJsonFields, mergeFields, nullFreeFields]
  | (key, value) :: rest, into, ordered => by
    simp only [fieldsInOrder, Bool.and_eq_true, List.all_eq_true, decide_eq_true_eq] at ordered
    have ⟨⟨above, first⟩, last⟩ := ordered
    have absent := Tally.lookup_eq_none_of_lt above
    have same := mergeJson_eq_merge_iff value ((into.get? key).getD .null) first
    rw [mergeJsonFields, mergeFields, nullFreeFields, Bool.and_eq_true]
    by_cases null : value = .null
    · -- one of the two has the member and the other does not
      subst null
      refine iff_of_false (fun equal => ?_) (by simp [nullFree])
      have read := congrArg (Fields.get? · key) equal
      simp only [get?_mergeJsonFields_of_absent _ absent, get?_mergeFields_of_absent _ absent,
        Fields.get?_insert_self, Value.isNull, if_true, Fields.get?_remove_self] at read
      cases read
    · have kept : value.isNull = false := by cases value <;> simp_all [Value.isNull]
      rw [kept, if_neg Bool.false_ne_true]
      constructor
      · intro equal
        have read := congrArg (Fields.get? · key) equal
        simp only [get?_mergeJsonFields_of_absent _ absent, get?_mergeFields_of_absent _ absent,
          Fields.get?_insert_self, some.injEq] at read
        rw [read] at equal
        exact ⟨(same.mp read).resolve_left null, (mergeJsonFields_eq_iff rest _ last).mp equal⟩
      · intro ⟨here, others⟩
        rw [same.mpr (.inr here)]
        exact (mergeJsonFields_eq_iff rest _ last).mpr others

end

/-- The status that RFC 7386 makes of the stored one: as it is where the document has none. -/
def rfc7386Status (existing patch : Value) : Value :=
  ((patch.get? "status").map (Patch.merge existing["status"])).getD existing["status"]

theorem status_patch_rfc7386_iff (codec : Patch.Codec) (contentType : String) (body : Bytes)
    (existing patch after : Value) (merges : Patch.Format.ofContentType contentType = .merge)
    (parsed : codec.parseJson body = .ok patch)
    (ordered : ∀ status, patch.get? "status" = some status → inOrder status = true)
    (applied : applyStatusPatch codec contentType body existing = .ok after) :
    after["status"] = rfc7386Status existing patch ↔
      ∀ status, patch.get? "status" = some status → status = .null ∨ nullFree status = true := by
  simp only [applyStatusPatch, merges, parsed, Patch.orInvalid] at applied
  have ⟨_, read, applied⟩ := bind_eq_ok.mp applied
  cases read
  have written := orPanic_eq_ok.mp applied
  unfold patchStatus at written
  rw [rfc7386Status]
  cases present : patch.get? "status" with
  | none =>
    rw [present] at written
    rw [(statusWriteMetadata_within written).outside "status" (by decide)]
    simp
  | some status =>
    rw [present] at written
    have ⟨merged, first, last⟩ := bind_eq_some_iff.mp written
    rw [(statusWriteMetadata_within last).outside "status" (by decide), Value.assign_self first]
    simpa using mergeJson_eq_merge_iff status existing["status"] (ordered status present)

/-- A document, or an object, with a phase in its status. -/
def withPhase (phase : Value) : Value := .object [("status", .object [("phase", phase)])]

/-- The text of such a document. -/
def phaseText (phase : String) : Bytes :=
  Text.utf8 ("\x7b\"status\":\x7b\"phase\":" ++ phase ++ "\x7d\x7d")

/-- A codec that reads two of them. -/
def phaseCodec : Patch.Codec := { settingsCodec with
  parseJson body :=
    if body = phaseText "\"Running\"" then .ok (withPhase (.string "Running"))
    else if body = phaseText "null" then .ok (withPhase .null)
    else .error "expected value at line 1 column 1" }

/-- A PATCH of the status of a pending object. -/
def patchPhase (body : Bytes) : Except Failure Value :=
  applyStatusPatch phaseCodec "application/merge-patch+json" body (withPhase (.string "Pending"))

theorem status_patch_rfc7386_iff_running : ∃ after,
    patchPhase (phaseText "\"Running\"") = .ok after ∧
    after["status"] = rfc7386Status (withPhase (.string "Pending"))
    (withPhase (.string "Running")) := by
  refine ⟨_, rfl,
    (status_patch_rfc7386_iff phaseCodec "application/merge-patch+json" (phaseText "\"Running\"")
    (withPhase (.string "Pending")) _ _ (by decide) rfl ?_ rfl).mpr ?_⟩
  · intro status found
    cases found
    rfl
  · intro status found
    cases found
    exact .inr rfl

/-- `null` is stored where the member should go. -/
theorem status_patch_keeps_null : ∃ after, patchPhase (phaseText "null") = .ok after ∧
    after["status"] = .object [("phase", .null)] ∧
    rfc7386Status (withPhase (.string "Pending")) (withPhase .null) = .object [] := by
  exact ⟨_, rfl, by decide, by decide⟩

end Rustkube
