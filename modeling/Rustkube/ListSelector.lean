import Rustkube.Lib.Json
import Rustkube.Lib.Text

/- The label and field selectors of a list or watch request. -/
namespace Rustkube.ListSelector

open Json

inductive LabelRequirement where
  | eq (key value : String)
  | notEq (key value : String)
  | isIn (key : String) (values : List String)
  | notIn (key : String) (values : List String)
  | exists (key : String)
  | doesNotExist (key : String)

structure FieldRequirement where
  field : String
  value : String
  negate : Bool

/-- What `trim` removes: the Unicode property White_Space. -/
def isWhitespace (char : Char) : Bool :=
  let code := char.toNat
  (9 ≤ code && code ≤ 13) || code == 0x20 || code == 0x85 || code == 0xA0 || code == 0x1680 ||
    (0x2000 ≤ code && code ≤ 0x200A) || code == 0x2028 || code == 0x2029 || code == 0x202F ||
    code == 0x205F || code == 0x3000

def trim (text : String) : String := Text.trimMatches text isWhitespace

/-- Split at the commas outside parentheses. -/
def splitSelectorChars : Int → List Char → List (List Char)
  | _, [] => [[]]
  | depth, char :: rest =>
    if char = ',' ∧ depth = 0 then [] :: splitSelectorChars depth rest
    else
      let depth := if char = '(' then depth + 1 else if char = ')' then depth - 1 else depth
      match splitSelectorChars depth rest with
      | part :: parts => (char :: part) :: parts
      | [] => [[char]]

def splitSelector (text : String) : List String :=
  (splitSelectorChars 0 text.toList).map String.ofList

def parseSetValues (text : String) : List String :=
  let text := trim text
  let text := (Text.stripPrefix text "(").getD text
  let text := (Text.stripSuffix text ")").getD text
  ((Text.split text ',').map trim).filter (· ≠ "")

/-- `key`, which exists, unless the expression is empty. -/
def parseExists (text : String) : Option LabelRequirement :=
  if trim text = "" then none else some (.exists (trim text))

def parseOneLabel (text : String) : Option LabelRequirement :=
  match Text.around text " notin ", Text.around text " in ", Text.around text "!=",
      Text.around text "=" with
  | some (key, values), _, _, _ => some (.notIn (trim key) (parseSetValues values))
  | none, some (key, values), _, _ => some (.isIn (trim key) (parseSetValues values))
  | none, none, some (key, value), _ => some (.notEq (trim key) (trim value))
  | none, none, none, some (key, value) =>
    -- `key=value` or `key==value`
    some (.eq (trim key) (trim ((Text.stripPrefix value "=").getD value)))
  | none, none, none, none =>
    match (Text.stripPrefix text "!").map trim with
    | some key => if key = "" then parseExists text else some (.doesNotExist key)
    | none => parseExists text

def parseLabelSelector (text : String) : List LabelRequirement :=
  if trim text = "" then []
  else (((splitSelector (trim text)).map trim).filter (· ≠ "")).filterMap parseOneLabel

def parseOneField (text : String) : Option FieldRequirement :=
  match Text.around text "!=", Text.around text "=" with
  | some (field, value), _ => some ⟨trim field, trim value, true⟩
  | none, some (field, value) => some ⟨trim field, trim value, false⟩
  | none, none => none

def parseFieldSelector (text : String) : List FieldRequirement :=
  if trim text = "" then []
  else (((Text.split (trim text) ',').map trim).filter (· ≠ "")).filterMap parseOneField

def LabelRequirement.holds (labels : Fields) : LabelRequirement → Bool
  | .eq key value => (labels.get? key).bind Value.asStr? == some value
  | .notEq key value => (labels.get? key).bind Value.asStr? != some value
  | .isIn key values => ((labels.get? key).bind Value.asStr?).any values.contains
  | .notIn key values => ((labels.get? key).bind Value.asStr?).all fun value =>
    !values.contains value
  | .exists key => (labels.get? key).isSome
  | .doesNotExist key => (labels.get? key).isNone

def matchesLabelSelector (labels : Fields) (requirements : List LabelRequirement) : Bool :=
  requirements.all (·.holds labels)

/-- The value of a field that is absent in a typed object. -/
def zeroValue (field : String) : String := if field = "spec.unschedulable" then "false" else ""

/-- `display` is serde_json's text of a number, an array or an object. -/
def fieldText (display : Value → String) : Value → Option String
  | .string text => some text
  | .bool true => some "true"
  | .bool false => some "false"
  | .null => none
  | value => some (display value)

def walk (value : Value) : List String → Option Value
  | [] => some value
  | part :: parts => (value.get? part).bind fun inside => walk inside parts

/-- A dotted field path. The field `source` of an Event is its `source.component`. -/
def resolveField (display : Value → String) (obj : Value) (path : String) : Option String :=
  let parts :=
    if path = "source" ∧ (obj.get? "source").any Value.isObject then ["source", "component"]
    else Text.split path '.'
  (walk obj parts).bind (fieldText display)

def FieldRequirement.holds (display : Value → String) (obj : Value)
    (requirement : FieldRequirement) : Bool :=
  let actual := (resolveField display obj requirement.field).getD (zeroValue requirement.field)
  (actual == requirement.value) != requirement.negate

def matchesFieldSelector (display : Value → String) (obj : Value)
    (requirements : List FieldRequirement) : Bool :=
  requirements.all (·.holds display obj)

def matchesSelectors (display : Value → String) (obj : Value) (labelSel fieldSel : Option String) :
    Bool :=
  let labels := obj["metadata"]["labels"].asObject?.getD []
  matchesLabelSelector labels ((labelSel.map parseLabelSelector).getD []) &&
    matchesFieldSelector display obj ((fieldSel.map parseFieldSelector).getD [])

example : (parseLabelSelector "app=web, env in (prod, test),!old").length = 3 := by decide

example : matchesSelectors (fun _ => "") (.object [("metadata", .object [("labels",
    .object [("app", .string "web")])]), ("spec", .object [])]) (some "app==web,tier notin (db)")
    (some "spec.nodeName=,spec.unschedulable!=true") = true := by decide

end Rustkube.ListSelector
