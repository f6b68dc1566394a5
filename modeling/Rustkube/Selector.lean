import Rustkube.Lib.Json

namespace Rustkube.Selector

open Json

inductive Operator where
  | isIn
  | notIn
  | exists
  | doesNotExist
deriving DecidableEq

def Operator.parse? (text : String) : Option Operator :=
  if text = "In" then some .isIn
  else if text = "NotIn" then some .notIn
  else if text = "Exists" then some .exists
  else if text = "DoesNotExist" then some .doesNotExist
  else none

def Operator.holds (values : List String) (held : Option String) : Operator → Bool
  | .isIn => held.any values.contains
  | .notIn => held.all fun value => !values.contains value
  | .exists => held.isSome
  | .doesNotExist => held.isNone

/-- One of `matchExpressions`. An operator it does not know fails closed. -/
def expressionMatches (labels expr : Value) : Bool :=
  let held := (labels.get? (expr["key"].asStr?.getD "")).bind Value.asStr?
  match Operator.parse? (expr["operator"].asStr?.getD "") with
  | some op => op.holds expr["values"].strings held
  | none => false

/-- Does `labels` satisfy `selector`? `{}` selects everything; `null`, or anything that is not an
object, nothing. -/
def matchesLabels (selector labels : Value) : Bool :=
  selector.isObject &&
  (match (selector.get? "matchLabels").bind Value.asObject? with
    | some wanted => wanted.all fun (key, want) => labels.get? key == some want
    | none => true) &&
  (match (selector.get? "matchExpressions").bind Value.asArray? with
    | some exprs => exprs.all (expressionMatches labels)
    | none => true)

end Rustkube.Selector
