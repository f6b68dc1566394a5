import Rustkube.StatusLane

/- How the metadata that a write asks for reaches the store. -/
namespace Rustkube

open Api ObjectStore Quantity Json

variable {api : Api} {codec : Patch.Codec} {key name field : String} {ns : Option String}
  {write : ObjectWrite} {store after : ObjectStore} {existing document shown asked : Value}

theorem KindRules.builtinUpdate_alike {rules : KindRules} {subresource : Option String}
    {body built : Value} (plain : QUANTITY_FIELDS.contains field = false)
    (other : field ≠ "generation")
    (updated : rules.builtinUpdate subresource key existing body = .ok built) :
    Alike built["metadata"][field] body["metadata"][field] := by
  have ⟨counted, counts, updated⟩ := bind_eq_ok.mp updated
  have ⟨kept, keeps, updated⟩ := bind_eq_ok.mp updated
  have ⟨_, _, updated⟩ := bind_eq_ok.mp updated
  have ⟨_, _, plans⟩ := bind_eq_ok.mp updated
  rw [planService_index plans (by decide), keepFinalizers_index (orPanic_eq_ok.mp keeps)
    (by decide),
    (Generation.onUpdate_within (orPanic_eq_ok.mp counts)).inside field (by simpa using other),
    ← rules.foldSecret_index key body (by decide) (by decide)]
  exact numbersToStrings_metadata _ plain

/-- The fields of `metadata` that a write decides. -/
structure Decided (field : String) : Prop where
  declared : field ∈ Schema.OBJECT_META
  free : field ∉ ["name", "namespace", "uid", "creationTimestamp"]
  notGeneration : field ≠ "generation"
  plain : QUANTITY_FIELDS.contains field = false

/-- The webhooks are shown the body of a PUT, or what the write makes of the object it read. -/
theorem ObjectWrite.shown_alike (shows : write.shown api codec key name ns existing = .ok shown) :
    ∃ document, write.mutation api codec existing = .ok document ∧ ∀ field, Decided field →
      Alike shown["metadata"][field] document["metadata"][field] := by
  have updates {mutate : Value → Except Failure Value}
      (shows : api.showUpdate key mutate existing = .ok shown) :
      ∃ document, mutate existing = .ok document ∧ ∀ field, Decided field →
        Alike shown["metadata"][field] document["metadata"][field] := by
    have ⟨document, mutates, shows⟩ := bind_eq_ok.mp shows
    refine ⟨document, mutates, fun field decided => ?_⟩
    split_ifs at shows
    · simp at shows
    · have ⟨built, builds, kept⟩ := bind_eq_ok.mp shows
      rw [(keepServerFields_spec (orPanic_eq_ok.mp kept)).1.inside field decided.free]
      exact KindRules.builtinUpdate_alike decided.plain decided.notGeneration builds
  cases write with
  | put strategy body =>
    refine ⟨body, rfl, fun field decided => ?_⟩
    change api.showPut strategy key name ns body existing = .ok shown at shows
    unfold showPut at shows
    split_ifs at shows
    · simp at shows
    · have ⟨opened, opens, shows⟩ := bind_eq_ok.mp shows
      have ⟨_, _, shows⟩ := bind_eq_ok.mp shows
      have ⟨kept, keeps, shows⟩ := bind_eq_ok.mp shows
      have ⟨updated, updates, builds⟩ := bind_eq_ok.mp shows
      have owned := keepServerFields_spec (orPanic_eq_ok.mp keeps)
      rw [← (openMetadata_within (orPanic_eq_ok.mp opens)).inside field List.not_mem_nil,
        ← owned.1.inside field decided.free,
        ← (Strategy.onUpdate_metadata updates owned.2 decided.declared decided.notGeneration).1]
      exact KindRules.builtinUpdate_alike decided.plain decided.notGeneration builds
  | patch | putStatus | patchStatus | update => exact updates shows

/-- What becomes of a write on its way: `document` is its body, or what its patch makes of the
object it read; the webhooks are shown `shown` and hand back `answer`. -/
structure ObjectWrite.Asks (api : Api) (codec : Patch.Codec) (key name : String)
    (ns : Option String) (write : ObjectWrite) (existing document shown answer : Value) : Prop where
  mutates : write.mutation api codec existing = .ok document
  shows : write.shown api codec key name ns existing = .ok shown
  answers : Admission.handedBack api.world api.request .update shown (some existing) = .ok answer

theorem ObjectWrite.asks_of_ask (asks : write.ask api codec key name ns existing = .ok asked) :
    ∃ document shown answer, write.Asks api codec key name ns existing document shown answer ∧
      ∀ field, Decided field → field ≠ "annotations" →
        Alike shown["metadata"][field] document["metadata"][field] ∧
          asked["metadata"][field] = answer["metadata"][field] := by
  have ⟨shown, shows, admits⟩ := bind_eq_ok.mp asks
  have ⟨admitted, ran, done⟩ := bind_eq_ok.mp admits
  have ⟨document, mutates, alike⟩ := shown_alike shows
  have ⟨answer, _, answers, _⟩ := Admission.admit_cases ran
  refine ⟨document, shown, answer, ⟨mutates, shows, answers⟩, fun field decided other => ?_⟩
  have free := decided.free
  simp only [List.mem_cons, List.not_mem_nil, or_false, not_or] at free
  have unhooked : field ∉ ["name", "namespace", "annotations"] := by simp [free.1, free.2.1, other]
  have ⟨again, back, same⟩ := Admission.admit_metadata ran unhooked
  cases Except.ok.inj (answers.symm.trans back)
  rw [← pure_eq_ok.mp done]
  exact ⟨alike field decided, same⟩

theorem ObjectWrite.Asks.eq {document' shown' answer answer' : Value}
    (asks : write.Asks api codec key name ns existing document shown answer)
    (again : write.Asks api codec key name ns existing document' shown' answer') :
    document' = document ∧ shown' = shown ∧ answer' = answer := by
  cases Except.ok.inj (again.mutates.symm.trans asks.mutates)
  cases Except.ok.inj (again.shows.symm.trans asks.shows)
  exact ⟨rfl, rfl, Except.ok.inj (again.answers.symm.trans asks.answers)⟩

/-- The same `deletionTimestamp`, and finalizers in both or in neither. -/
def SameDeletion (obj other : Value) : Prop :=
  deletionTimestamp obj = deletionTimestamp other ∧ finalizersLeft obj = finalizersLeft other

/-- What is asked for carries the stored `deletionTimestamp`, or lets an object that is being
deleted go. -/
def AsksNoDeletion (stored asked : Value) : Prop :=
  deletionTimestamp asked = deletionTimestamp stored ∨
    ((deletionTimestamp stored).isSome = true ∧ (deletionTimestamp asked).isSome = true ∧
      finalizersLeft asked = false)

attribute [local simp] storedForm_deletionTimestamp

theorem AsksNoDeletion.congr {stored obj other : Value} (same : SameDeletion obj other) :
    AsksNoDeletion stored obj ↔ AsksNoDeletion stored other := by
  unfold AsksNoDeletion
  rw [same.1, same.2]

/-- The deletion is left as it is stored: by the body or the patched object where the webhooks leave
it as they are shown it, and otherwise by what they hand back. -/
def LeavesDeletion (stored document shown answer : Value) : Prop :=
  (SameDeletion shown answer → AsksNoDeletion stored document) ∧
    (¬ SameDeletion shown answer → AsksNoDeletion stored answer)

theorem LeavesDeletion.iff {stored answer : Value} (same : SameDeletion shown document) :
    LeavesDeletion stored document shown answer ↔ AsksNoDeletion stored answer := by
  unfold LeavesDeletion
  by_cases left : SameDeletion shown answer
  · simp [left, ← AsksNoDeletion.congr same, AsksNoDeletion.congr left]
  · simp [left]

end Rustkube
