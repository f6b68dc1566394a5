import Rustkube.Admission

/- What admission makes of an update besides what the webhooks do to it. -/
namespace Rustkube.Admission

open Json

/-- The object as the mutating webhooks hand it back. -/
def handedBack (world : World) (request : Option RequestAttrs) (op : Operation) (object : Value)
    (old : Option Value) : Except Failure Value :=
  match request with
  | none => pure object
  | some request =>
    if !verbMatches op request.verb || !named request (some object) old || exempt request.group then
      pure object
    else do
      let (mutated, reinvoke) ←
        mutateAll request op old world (world.mutating.hooks true) ⟨object, []⟩
      let mutated ← reinvokeAll request op old world reinvoke mutated
      pure mutated.current

variable {world : World} {request : RequestAttrs} {op : Operation} {old : Option Value}
  {object answer : Value} {admitted : Admitted} {field : String}

/-- What the server makes of an object that the webhooks hand back: nothing else, or what its own
rules do, with the identity of the object that was shown. -/
def Finished (request : RequestAttrs) (op : Operation) (old : Option Value)
    (object answer result : Value) : Prop :=
  ∃ settled, afterMutating request op old answer = .ok settled ∧
    (result = settled ∨ result = keepIdentity object settled)

theorem admit_finished (made : verbMatches op request.verb = true)
    (names : named request (some object) old = true) (outside : exempt request.group = false)
    (ran : admitWrite world (some request) op (some object) old = .ok admitted) :
    ∃ answer result, handedBack world (some request) op object old = .ok answer ∧
      admitted.object = some result ∧ Finished request op old object answer result := by
  simp only [admitWrite, handedBack, made, names, outside, Bool.not_true, Bool.or_false,
    Bool.false_eq_true, if_false] at ran ⊢
  split_ifs at ran with quiet
  · obtain ⟨settled, after, done⟩ := bind_eq_ok.mp ran
    have none : world.mutating.hooks true = [] :=
      List.isEmpty_iff.mp (Bool.and_eq_true_iff.mp quiet).1
    rw [← pure_eq_ok.mp done, none]
    exact ⟨object, settled, rfl, rfl, settled, after, .inl rfl⟩
  · obtain ⟨⟨mutated, reinvoke⟩, first, rest⟩ := bind_eq_ok.mp ran
    obtain ⟨again, second, rest⟩ := bind_eq_ok.mp rest
    obtain ⟨current, settles, rest⟩ := bind_eq_ok.mp rest
    obtain ⟨_, _, done⟩ := bind_eq_ok.mp rest
    obtain ⟨settled, after, identified⟩ := bind_eq_ok.mp settles
    rw [← pure_eq_ok.mp done]
    refine ⟨again.current, current, ?_, rfl, settled, after, .inr (pure_eq_ok.mp identified).symm⟩
    exact bind_eq_ok.mpr ⟨_, first, bind_eq_ok.mpr ⟨again, second, rfl⟩⟩

/-- A write is let through as it is, or finished by the server. -/
theorem admit_cases {request : Option RequestAttrs}
    (ran : admitWrite world request op (some object) old = .ok admitted) :
    ∃ answer result, handedBack world request op object old = .ok answer ∧
      admitted.object = some result ∧
      (result = answer ∨ ∃ attrs, request = some attrs ∧
          Finished attrs op old object answer result) := by
  cases request with
  | none =>
    rw [← pure_eq_ok.mp ran]
    exact ⟨object, object, rfl, rfl, .inl rfl⟩
  | some request =>
    by_cases reaches : (!verbMatches op request.verb || !named request (some object) old ||
      exempt request.group) = true
    · simp only [admitWrite, handedBack, reaches, if_true] at ran ⊢
      rw [← pure_eq_ok.mp ran]
      exact ⟨object, object, rfl, rfl, .inl rfl⟩
    · simp only [Bool.or_eq_true, Bool.not_eq_true', not_or, Bool.not_eq_false,
        Bool.not_eq_true] at reaches
      obtain ⟨answer, result, answers, isResult, finished⟩ :=
        admit_finished reaches.1.1 reaches.1.2 reaches.2 ran
      exact ⟨answer, result, answers, isResult, .inr ⟨request, rfl, finished⟩⟩

theorem keepIdentity_index (before current : Value) (outside : field ≠ "metadata") :
    (keepIdentity before current)[field] = current[field] := by
  have keep (name : String) (object : Value) : (if before["metadata"][name].isString then
          object.insert "metadata" (object["metadata"].insert name before["metadata"][name])
        else object)[field] = object[field] := by
    by_cases given : before["metadata"][name].isString = true
    · rw [if_pos given, Value.index_insert_of_ne outside]
    · rw [if_neg given]
  unfold keepIdentity
  by_cases shape : current["metadata"].isObject = true
  · rw [if_pos shape, keep "namespace", keep "name"]
  · rw [if_neg shape]

/-- A field of `metadata` stays, or is the name or the namespace and as it was shown. -/
theorem keepIdentity_metadata (before current : Value) (field : String) :
    (keepIdentity before current)["metadata"][field] = current["metadata"][field] ∨
      (field = "name" ∨ field = "namespace") ∧
        (keepIdentity before current)["metadata"][field] = before["metadata"][field] := by
  have keep (name : String) (object : Value) (shape : object["metadata"].isObject = true) :
      let kept := if before["metadata"][name].isString then
          object.insert "metadata" (object["metadata"].insert name before["metadata"][name])
        else object
      kept["metadata"].isObject = true ∧ (kept["metadata"][field] = object["metadata"][field] ∨
        field = name ∧ kept["metadata"][field] = before["metadata"][field]) := by
    by_cases given : before["metadata"][name].isString = true
    · rw [if_pos given]
      dsimp only
      rw [Value.index_insert_self (Value.isObject_of_index shape), Value.isObject_insert]
      refine ⟨shape, ?_⟩
      by_cases same : field = name
      · rw [same, Value.index_insert_self shape]
        exact .inr ⟨rfl, rfl⟩
      · exact .inl (Value.index_insert_of_ne same)
    · rw [if_neg given]
      exact ⟨shape, .inl rfl⟩
  unfold keepIdentity
  by_cases shape : current["metadata"].isObject = true
  · rw [if_pos shape]
    have ⟨named, first⟩ := keep "name" current shape
    have ⟨_, second⟩ := keep "namespace" _ named
    rcases second with same | ⟨isNamespace, shown⟩
    · rw [same]
      exact first.imp_right fun ⟨isName, shown⟩ => ⟨.inl isName, shown⟩
    · exact .inr ⟨.inr isNamespace, shown⟩
  · rw [if_neg shape]
    exact .inl rfl

theorem mapAnnotations_within (obj : Value) (update : Fields → Fields) :
    Value.Within "metadata" ["annotations"] obj (Requester.mapAnnotations obj update) := by
  cases obj with
  | object root =>
    refine ⟨fun field outside => ?_, fun field other => ?_⟩
    · unfold Requester.mapAnnotations Value.mapObject
      rw [Value.index_object, Value.index_object, Fields.get?_insert_of_ne outside]
    · unfold Requester.mapAnnotations Value.mapObject
      rw [Value.index_object, Fields.get?_insert_self, Option.getD_some, Value.index_object,
        Fields.get?_insert_of_ne (by simpa using other), Value.index_object]
      cases Fields.get? root "metadata" with
      | none => rfl
      | some metadata => cases metadata <;> rfl
  | _ => exact .refl ..

theorem stampRequester_within (request : RequestAttrs) (stored object : Value) :
    Value.Within "metadata" ["annotations"] object
      (stampRequester request .update (some stored) object) := by
  unfold stampRequester
  split_ifs
  · have mapped := mapAnnotations_within object fun annotations =>
      Requester.carry stored Requester.REQUESTER_GROUPS
        (Requester.carry stored Requester.REQUESTER annotations)
    change Value.Within _ _ _ (Requester.onUpdate object stored)
    unfold Requester.onUpdate
    generalize Requester.mapAnnotations object _ = carried at mapped ⊢
    dsimp only
    split_ifs with bare
    · refine ⟨fun field outside => ?_, fun field other => ?_⟩
      · rw [Value.index_insert_of_ne outside, mapped.outside field outside]
      · have inner : carried["metadata"]["annotations"].isObject = true := by
          rw [bare]
          rfl
        have shape := Value.isObject_of_index (Value.isObject_of_index inner)
        rw [Value.index_insert_self shape, Value.index_remove_of_ne (by simpa using other),
          mapped.inside field other]
    · exact mapped
  · exact .refl ..

/-- An update of a CSR gets the stored spec back. Its status is the only other field that
changes. -/
theorem admitCsr_update {stored current after : Value}
    (admits : admitCsr request .update (some stored) current = .ok after) :
    (∀ field, field ≠ "spec" → field ≠ "status" → after[field] = current[field]) ∧
      (after["spec"] = current["spec"] ∨ after["spec"] = stored["spec"]) := by
  unfold admitCsr at admits
  split_ifs at admits
  · have ⟨kept, keeps, rest⟩ := bind_eq_ok.mp admits
    have ⟨_, _, done⟩ := bind_eq_ok.mp rest
    rw [← pure_eq_ok.mp done]
    have ⟨specced, first, last⟩ := Option.bind_eq_some_iff.mp (orPanic_eq_ok.mp keeps)
    have status : ∀ field, field ≠ "status" → kept[field] = specced[field] := by
      intro field other
      split at last
      · exact Value.assign_of_ne last other
      · split_ifs at last
        · unfold CsrAdmission.keepCertificate at last
          split at last
          · exact Value.assignIn_of_ne last other
          · exact Value.assign_of_ne last other
        · rw [Option.some.inj last]
    refine ⟨fun field notSpec notStatus => ?_, .inr ?_⟩
    · rw [status field notStatus, Value.assign_of_ne first notSpec]
    · rw [status "spec" (by decide), Value.assign_self first]
  · rw [pure_eq_ok.mp admits]
    exact ⟨fun _ _ _ => rfl, .inl rfl⟩

section

variable {stored current settled : Value}
  (after : afterMutating request .update (some stored) current = .ok settled)

include after

theorem afterMutating_metadata (free : field ≠ "annotations") :
    settled["metadata"][field] = current["metadata"][field] := by
  have ⟨csr, admits, rest⟩ := bind_eq_ok.mp after
  have ⟨_, _, done⟩ := bind_eq_ok.mp rest
  rw [← pure_eq_ok.mp done, (admitCsr_update admits).1 "metadata" (by decide) (by decide),
    (stampRequester_within request stored current).inside field (by simpa using free)]

theorem afterMutating_index (outside : field ≠ "metadata") (notStatus : field ≠ "status") :
    settled[field] = current[field] ∨ settled[field] = stored[field] := by
  have ⟨csr, admits, rest⟩ := bind_eq_ok.mp after
  have ⟨_, _, done⟩ := bind_eq_ok.mp rest
  have ⟨others, spec⟩ := admitCsr_update admits
  rw [← pure_eq_ok.mp done, ← (stampRequester_within request stored current).outside field outside]
  by_cases isSpec : field = "spec"
  · rw [isSpec]
    exact spec
  · exact .inl (others field isSpec notStatus)

end

/-- A field of `metadata` is as the webhooks hand it back, the name, the namespace and the
annotations apart. -/
theorem admit_metadata {request : Option RequestAttrs} {stored : Value}
    (ran : admitWrite world request .update (some object) (some stored) = .ok admitted)
    (free : field ∉ ["name", "namespace", "annotations"]) :
    ∃ answer, handedBack world request .update object (some stored) = .ok answer ∧
      (admitted.object.getD object)["metadata"][field] = answer["metadata"][field] := by
  have ⟨answer, result, answers, isResult, finished⟩ := admit_cases ran
  refine ⟨answer, answers, ?_⟩
  rw [isResult, Option.getD_some]
  simp only [List.mem_cons, List.not_mem_nil, or_false, not_or] at free
  rcases finished with rfl | ⟨attrs, -, settled, after, rfl | rfl⟩
  · rfl
  · exact afterMutating_metadata after free.2.2
  · rcases keepIdentity_metadata object settled field with same | ⟨isName | isNamespace, -⟩
    · rw [same, afterMutating_metadata after free.2.2]
    · exact absurd isName free.1
    · exact absurd isNamespace free.2.1

end Rustkube.Admission
