import Rustkube.ObjectDelete

namespace Rustkube

open List Json Value

namespace Affinity

/-- One of `matchExpressions`, as the scheduler reads it. An operator it does not know holds. -/
def expressionMatches (labels expr : Value) : Bool :=
  let key := expr["key"].asStr?.getD ""
  let values := expr["values"].strings
  match Selector.Operator.parse? (expr["operator"].asStr?.getD "In") with
  | some .isIn => labels[key].asStr?.any values.contains
  | some .notIn => labels[key].asStr?.all fun held => !values.contains held
  | some .exists => !labels[key].isNull
  | some .doesNotExist => labels[key].isNull
  | none => true

/-- `affinity::selector_matches`. Anything that is not an object selects everything, as `{}`
does. -/
def selectorMatches (selector labels : Value) : Bool :=
  (selector["matchLabels"].asObject?.getD []).all (fun (key, value) => labels[key] == value) &&
  (selector["matchExpressions"].asArray?.getD []).all (expressionMatches labels)

end Affinity

namespace Selector

/-- The shape of a LabelSelector that the API accepts: labels are strings, and every expression has
one of the four operators. -/
structure Accepted (selector : Value) : Prop where
  isObject : selector.isObject = true
  labels : ∀ field ∈ selector["matchLabels"].asObject?.getD [], field.2.isString = true
  expressions : ∀ expr ∈ selector["matchExpressions"].asArray?.getD [],
    (expr["operator"].asStr?.bind Operator.parse?).isSome = true

/-- The labels of an object: absent, or strings under their keys. -/
def LabelMap (labels : Value) : Prop :=
  labels = .null ∨ ∃ fields, labels = .object fields ∧ ∀ field ∈ fields, field.2.isString = true

def labelsHold (selector labels : Value) : Bool :=
  (selector["matchLabels"].asObject?.getD []).all fun (key, want) => labels.get? key == some want

def expressionsHold (selector labels : Value) : Bool :=
  (selector["matchExpressions"].asArray?.getD []).all (expressionMatches labels)

variable {selector labels : Value}

theorem index_asObject (name : String) :
    selector[name].asObject? = (selector.get? name).bind asObject? := by
  rw [index_eq]
  cases selector.get? name <;> rfl

theorem index_asArray (name : String) :
    selector[name].asArray? = (selector.get? name).bind asArray? := by
  rw [index_eq]
  cases selector.get? name <;> rfl

theorem matchesLabels_eq (accepted : Accepted selector) :
    matchesLabels selector labels =
      (labelsHold selector labels && expressionsHold selector labels) := by
  unfold matchesLabels labelsHold expressionsHold
  rw [accepted.isObject, Bool.true_and, index_asObject, index_asArray]
  congr 1
  · cases (selector.get? "matchLabels").bind asObject? <;> rfl
  · cases (selector.get? "matchExpressions").bind asArray? <;> rfl

theorem evictionMatches_eq (accepted : Accepted selector) :
    selectorMatches selector labels = labelsHold selector labels := by
  unfold selectorMatches labelsHold
  rw [index_asObject]
  cases (selector.get? "matchLabels").bind asObject? with
  | none => exact accepted.isObject
  | some wanted => rfl

theorem LabelMap.held (map : LabelMap labels) (key : String) :
    (∃ text, labels.get? key = some (.string text)) ∨ labels.get? key = none := by
  rcases map with rfl | ⟨fields, rfl, strings⟩
  · exact .inr rfl
  · rw [get?_object]
    cases found : Json.Fields.get? fields key with
    | none => exact .inr rfl
    | some value =>
      have isString := strings (key, value) (Json.Fields.mem_of_get? found)
      cases value with
      | string text => exact .inl ⟨text, rfl⟩
      | _ => cases isString

theorem affinity_label (map : LabelMap labels) (key : String) {want : Value}
    (isString : want.isString = true) : (labels[key] == want) = (labels.get? key == some want) := by
  rw [index_eq]
  rcases map.held key with ⟨text, found⟩ | absent
  · simp [found]
  · cases want with
    | string text => simp [absent]
    | _ => cases isString

theorem affinity_expression (map : LabelMap labels) {expr : Value}
    (known : (expr["operator"].asStr?.bind Operator.parse?).isSome = true) :
    Affinity.expressionMatches labels expr = expressionMatches labels expr := by
  unfold Affinity.expressionMatches expressionMatches
  cases text : expr["operator"].asStr? with
  | none => simp [text] at known
  | some name =>
    rw [text, Option.bind_some] at known
    have ⟨op, parsed⟩ := Option.isSome_iff_exists.mp known
    simp only [Option.getD_some, parsed, index_eq labels]
    rcases map.held (expr["key"].asStr?.getD "") with ⟨value, found⟩ | absent
    · simp only [found]
      cases op <;> rfl
    · simp only [absent]
      cases op <;> rfl

theorem affinityMatches_eq (accepted : Accepted selector) (map : LabelMap labels) :
    Affinity.selectorMatches selector labels = matchesLabels selector labels := by
  rw [matchesLabels_eq accepted]
  unfold Affinity.selectorMatches labelsHold expressionsHold
  congr 1
  · rw [Bool.eq_iff_iff, all_eq_true, all_eq_true]
    refine forall₂_congr fun field wanted => ?_
    have label := affinity_label map field.1 (accepted.labels field wanted)
    exact iff_of_eq (congrArg (· = true) label)
  · rw [Bool.eq_iff_iff, all_eq_true, all_eq_true]
    refine forall₂_congr fun expr asked => ?_
    rw [affinity_expression map (accepted.expressions expr asked)]

/-- The three interpreters answer alike exactly where no expression turns away what the labels of
the selector admit. -/
theorem selectors_agree_iff (accepted : Accepted selector) (map : LabelMap labels) :
    (selectorMatches selector labels = matchesLabels selector labels ∧
        Affinity.selectorMatches selector labels = matchesLabels selector labels) ↔
      (labelsHold selector labels = true → expressionsHold selector labels = true) := by
  rw [and_iff_left (affinityMatches_eq accepted map), evictionMatches_eq accepted,
    matchesLabels_eq accepted]
  cases labelsHold selector labels <;> simp

/-- `app In (web)` -/
def webExpression : Value := .object [("matchExpressions", .array [.object [
  ("key", .string "app"), ("operator", .string "In"), ("values", .array [.string "web"])]])]

theorem webExpression_accepted : Accepted webExpression where
  isObject := rfl
  labels := by decide
  expressions := by decide

theorem selectors_agree_iff_web :
    (labelsHold webExpression (.object [("app", .string "web")]) = true →
        expressionsHold webExpression (.object [("app", .string "web")]) = true) ∧
      selectorMatches webExpression (.object [("app", .string "web")]) =
        matchesLabels webExpression (.object [("app", .string "web")]) :=
  ⟨by decide, ((selectors_agree_iff webExpression_accepted
    (.inr ⟨_, rfl, by decide⟩)).mpr (by decide)).1⟩

/-- A budget on `app In (web)` covers a pod with `app: db` in the eviction handler, and in no other
component. -/
theorem eviction_ignores_expressions :
    selectorMatches webExpression (.object [("app", .string "db")]) = true ∧
      Affinity.selectorMatches webExpression (.object [("app", .string "db")]) = false ∧
      matchesLabels webExpression (.object [("app", .string "db")]) = false := by
  decide

end Selector

end Rustkube
