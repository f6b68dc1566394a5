import Mathlib.Algebra.Order.Ring.Int
import Rustkube.Lib.Transition

namespace Json

open List

/-- A JSON document as serde_json holds it. An object is the list of its fields in key order,
the order a `BTreeMap` iterates in. A float is kept as its bits: nothing below computes with it. -/
inductive Value where
  | null
  | bool (value : Bool)
  | number (value : Int)
  | float (bits : BitVec 64)
  | string (text : String)
  | array (items : List Value)
  | object (fields : List (String × Value))
deriving Inhabited

namespace Value

mutual

def beq : Value → Value → Bool
  | .null, .null => true
  | .bool left, .bool right => left == right
  | .number left, .number right => left == right
  | .float left, .float right => left == right
  | .string left, .string right => left == right
  | .array left, .array right => beqItems left right
  | .object left, .object right => beqFields left right
  | _, _ => false

def beqItems : List Value → List Value → Bool
  | [], [] => true
  | left :: lefts, right :: rights => beq left right && beqItems lefts rights
  | _, _ => false

def beqFields : List (String × Value) → List (String × Value) → Bool
  | [], [] => true
  | (name, left) :: lefts, (name', right) :: rights =>
    name == name' && beq left right && beqFields lefts rights
  | _, _ => false

end

mutual

theorem beq_iff : ∀ left right : Value, beq left right = true ↔ left = right
  | .null, right => by cases right <;> simp [beq]
  | .bool _, right => by cases right <;> simp [beq]
  | .number _, right => by cases right <;> simp [beq]
  | .float _, right => by cases right <;> simp [beq]
  | .string _, right => by cases right <;> simp [beq]
  | .array items, right => by cases right <;> simp [beq, beqItems_iff items]
  | .object fields, right => by cases right <;> simp [beq, beqFields_iff fields]

theorem beqItems_iff : ∀ left right : List Value, beqItems left right = true ↔ left = right
  | [], right => by cases right <;> simp [beqItems]
  | item :: items, right => by
    cases right <;> simp [beqItems, beq_iff item, beqItems_iff items]

theorem beqFields_iff : ∀ left right : List (String × Value),
    beqFields left right = true ↔ left = right
  | [], right => by cases right <;> simp [beqFields]
  | (name, value) :: fields, [] => by simp [beqFields]
  | (name, value) :: fields, (name', value') :: fields' => by
    simp [beqFields, beq_iff value, beqFields_iff fields]

end

instance : DecidableEq Value := fun left right =>
  decidable_of_iff (beq left right = true) (beq_iff left right)

end Value

/-- The fields of an object, as a `BTreeMap<String, Value>`. -/
abbrev Fields := List (String × Value)

namespace Fields

def get? (fields : Fields) (name : String) : Option Value := fields.lookup name

/-- Insertion keeps the fields in key order and replaces a field of the same name. -/
def insert (name : String) (value : Value) : Fields → Fields
  | [] => [(name, value)]
  | (name', value') :: rest =>
    if name = name' then (name, value) :: rest
    else if name < name' then (name, value) :: (name', value') :: rest
    else (name', value') :: insert name value rest

def remove (name : String) (fields : Fields) : Fields := fields.filter (·.1 != name)

variable {fields : Fields} {name other : String} {value : Value}

theorem mem_of_get? (found : fields.get? name = some value) : (name, value) ∈ fields := by
  obtain ⟨before, after, rfl, -⟩ := lookup_eq_some_iff.mp found
  simp

theorem get?_insert_self : (insert name value fields).get? name = some value := by
  induction fields with
  | nil => simp [insert, get?]
  | cons entry rest ih =>
    simp only [insert, get?] at ih ⊢
    split_ifs with same before
    · simp
    · simp
    · rw [lookup_cons_of_ne same, ih]

theorem get?_insert_of_ne (different : other ≠ name) :
    (insert name value fields).get? other = fields.get? other := by
  induction fields with
  | nil => exact lookup_cons_of_ne different
  | cons entry rest ih =>
    simp only [insert, get?] at ih ⊢
    split_ifs with same before
    · rw [lookup_cons_of_ne different, lookup_cons_of_ne (same ▸ different)]
    · exact lookup_cons_of_ne different
    · rw [lookup_cons, lookup_cons, ih]

theorem get?_remove_self : (remove name fields).get? name = none := by
  rw [get?, lookup_eq_none_iff]
  intro entry member
  have kept := (mem_filter.mp member).2
  simpa using Ne.symm (by simpa using kept)

theorem get?_filter (keep : String → Bool) (kept : keep name = true) :
    get? (fields.filter fun entry => keep entry.1) name = fields.get? name := by
  induction fields with
  | nil => rfl
  | cons entry rest ih =>
    have ⟨key, held⟩ := entry
    simp only [get?] at ih ⊢
    by_cases same : name = key
    · subst same
      simp [kept]
    · rw [lookup_cons_of_ne same, filter_cons]
      split_ifs
      · rw [lookup_cons_of_ne same, ih]
      · exact ih

theorem get?_remove_of_ne (different : other ≠ name) :
    (remove name fields).get? other = fields.get? other :=
  get?_filter (· != name) (by simpa using different)

theorem get?_filterMap (update : String → Value → Option Value)
    (kept : ∀ value, (update name value).isSome = true) :
    get? (fields.filterMap fun entry => (update entry.1 entry.2).map (entry.1, ·)) name =
      (fields.get? name).bind (update name) := by
  induction fields with
  | nil => rfl
  | cons entry rest ih =>
    have ⟨key, held⟩ := entry
    simp only [get?] at ih ⊢
    by_cases same : name = key
    · subst same
      have ⟨updated, isUpdate⟩ := Option.isSome_iff_exists.mp (kept held)
      simp [isUpdate]
    · rw [lookup_cons_of_ne same, filterMap_cons]
      cases update key held with
      | none => exact ih
      | some updated => exact (lookup_cons_of_ne same).trans ih

end Fields

namespace Value

def asArray? : Value → Option (List Value)
  | .array items => some items
  | _ => none

def asStr? : Value → Option String
  | .string text => some text
  | _ => none

def asObject? : Value → Option Fields
  | .object fields => some fields
  | _ => none

def asBool? : Value → Option Bool
  | .bool value => some value
  | _ => none

def asInt? : Value → Option Int
  | .number value => some value
  | _ => none

def asI64? (value : Value) : Option Int :=
  value.asInt?.filter fun number => -2 ^ 63 ≤ number && number < 2 ^ 63

def isNull : Value → Bool
  | .null => true
  | _ => false

def isString (value : Value) : Bool := value.asStr?.isSome

theorem asStr?_eq_some {value : Value} {text : String} :
    value.asStr? = some text ↔ value = .string text := by
  cases value <;> simp [asStr?]

def isObject (value : Value) : Bool := value.asObject?.isSome

/-- The strings of a list. Entries that are not strings are passed over. -/
def strings (value : Value) : List String :=
  match value.asArray? with
  | some items => items.filterMap asStr?
  | none => []

/-- `value.get(name)`: the field of that name, if `value` is an object that has one. -/
def get? (value : Value) (name : String) : Option Value :=
  match value.asObject? with
  | some fields => fields.get? name
  | none => none

/-- `value[name]`: a field that is not there reads as `null`. -/
instance : GetElem Value String Value (fun _ _ => True) where
  getElem value name _ := (value.get? name).getD .null

theorem index_eq (value : Value) (name : String) : value[name] = (value.get? name).getD .null := rfl

/-- The fields of an object put through `update`; anything else is left as it is. -/
def mapObject (update : Fields → Fields) : Value → Value
  | .object fields => .object (update fields)
  | value => value

/-- `if let Some(map) = value.as_object_mut() { map.insert(name, field) }` -/
def insert (value : Value) (name : String) (field : Value) : Value :=
  value.mapObject (Fields.insert name field)

/-- `if let Some(map) = value.as_object_mut() { map.remove(name) }` -/
def remove (value : Value) (name : String) : Value :=
  value.mapObject (Fields.remove name)

/-- `value[name] = field`. Indexing `null` for writing turns it into an object. Any other value
that is not an object panics: no result. -/
def assign (value : Value) (name : String) (field : Value) : Option Value :=
  match value with
  | .null => some (.object [(name, field)])
  | .object fields => some (.object (Fields.insert name field fields))
  | _ => none

/-- `value[outer][inner] = field` -/
def assignIn (value : Value) (outer inner : String) (field : Value) : Option Value := do
  let inside ← value[outer].assign inner field
  value.assign outer inside

/-- `if let Some(map) = value[outer].as_object_mut() { map.remove(inner) }`, where `value[outer]`
is not made by the indexing. -/
def removeIn (value : Value) (outer inner : String) : Value :=
  match value.get? outer with
  | some inside => value.insert outer (inside.remove inner)
  | none => value

variable {value after : Value} {name other : String} {field : Value}

@[simp] theorem insert_object (name : String) (field : Value) (fields : Fields) :
    (object fields).insert name field = .object (Fields.insert name field fields) := rfl

@[simp] theorem remove_object (name : String) (fields : Fields) :
    (object fields).remove name = .object (Fields.remove name fields) := rfl

theorem get?_object (fields : Fields) (name : String) :
    (object fields).get? name = fields.get? name := rfl

theorem index_object (fields : Fields) (name : String) :
    (object fields)[name] = (fields.get? name).getD .null := rfl

theorem isObject_iff : value.isObject = true ↔ ∃ fields, value = .object fields := by
  cases value <;> simp [isObject, asObject?]

theorem isObject_of_index (shape : value[name].isObject = true) : value.isObject = true := by
  cases value with
  | object fields => rfl
  | _ => cases shape

theorem isObject_insert : (value.insert name field).isObject = value.isObject := by
  cases value <;> rfl

theorem get?_insert_self (shape : value.isObject = true) :
    (value.insert name field).get? name = some field := by
  obtain ⟨fields, rfl⟩ := isObject_iff.mp shape
  exact Fields.get?_insert_self

theorem get?_insert_of_ne (different : other ≠ name) :
    (value.insert name field).get? other = value.get? other := by
  cases value with
  | object fields => exact Fields.get?_insert_of_ne different
  | _ => rfl

theorem get?_remove_self : (value.remove name).get? name = none := by
  cases value with
  | object fields => exact Fields.get?_remove_self
  | _ => rfl

theorem get?_remove_of_ne (different : other ≠ name) :
    (value.remove name).get? other = value.get? other := by
  cases value with
  | object fields => exact Fields.get?_remove_of_ne different
  | _ => rfl

theorem index_insert_self (shape : value.isObject = true) :
    (value.insert name field)[name] = field := by
  rw [index_eq, get?_insert_self shape]
  rfl

theorem index_insert_of_ne (different : other ≠ name) :
    (value.insert name field)[other] = value[other] := by
  rw [index_eq, index_eq, get?_insert_of_ne different]

theorem index_remove_self : (value.remove name)[name] = .null := by
  rw [index_eq, get?_remove_self]
  rfl

theorem index_remove_of_ne (different : other ≠ name) :
    (value.remove name)[other] = value[other] := by
  rw [index_eq, index_eq, get?_remove_of_ne different]

section

variable (written : value.assign name field = some after)

include written

theorem assign_spec : after = .object (Fields.insert name field (value.asObject?.getD [])) := by
  cases value with
  | null | object fields =>
    cases written
    rfl
  | _ => cases written

theorem assign_get?_self : after.get? name = some field := by
  rw [assign_spec written]
  exact Fields.get?_insert_self

theorem assign_get?_of_ne (different : other ≠ name) : after.get? other = value.get? other := by
  rw [assign_spec written, get?_object, Fields.get?_insert_of_ne different]
  cases value <;> rfl

theorem assign_self : after[name] = field := by
  rw [index_eq, assign_get?_self written]
  rfl

theorem assign_of_ne (different : other ≠ name) : after[other] = value[other] := by
  rw [index_eq, index_eq, assign_get?_of_ne written different]

theorem assign_isObject : after.isObject = true := by
  rw [assign_spec written]
  rfl

end

theorem assign_of_isObject (shape : value.isObject = true) :
    ∃ after, value.assign name field = some after := by
  obtain ⟨fields, rfl⟩ := isObject_iff.mp shape
  exact ⟨_, rfl⟩

section

variable {outer inner : String}

section

variable (written : value.assignIn outer inner field = some after)

include written

theorem assignIn_spec :
    ∃ inside, value[outer].assign inner field = some inside ∧
      value.assign outer inside = some after := by
  unfold assignIn at written
  cases inside : value[outer].assign inner field with
  | none => simp [inside] at written
  | some found => exact ⟨found, rfl, by simpa [inside] using written⟩

theorem assignIn_self : after[outer][inner] = field := by
  have ⟨inside, assigned, placed⟩ := assignIn_spec written
  rw [assign_self placed]
  exact assign_self assigned

theorem assignIn_inner_of_ne (different : other ≠ inner) :
    after[outer][other] = value[outer][other] := by
  have ⟨inside, assigned, placed⟩ := assignIn_spec written
  rw [assign_self placed]
  exact assign_of_ne assigned different

theorem assignIn_of_ne (different : other ≠ outer) : after[other] = value[other] := by
  have ⟨inside, assigned, placed⟩ := assignIn_spec written
  exact assign_of_ne placed different

theorem assignIn_isObject : after[outer].isObject = true := by
  have ⟨inside, assigned, placed⟩ := assignIn_spec written
  rw [assign_self placed]
  exact assign_isObject assigned

end

theorem removeIn_index : (value.removeIn outer inner)[outer] = value[outer].remove inner := by
  unfold removeIn
  split
  · rename_i found present
    have shape : value.isObject = true := by
      cases value with
      | object fields => rfl
      | _ => simp [get?, asObject?] at present
    rw [index_insert_self shape, index_eq value, present]
    rfl
  · rename_i absent
    rw [index_eq, absent]
    rfl

theorem removeIn_of_ne (different : other ≠ outer) :
    (value.removeIn outer inner)[other] = value[other] := by
  unfold removeIn
  split
  · exact index_insert_of_ne different
  · rfl

end

/-- `after` is `value` with no other fields written than those of `value[outer]` named in
`inner`. -/
structure Within (outer : String) (inner : List String) (value after : Value) : Prop where
  outside : ∀ field, field ≠ outer → after[field] = value[field]
  inside : ∀ field, field ∉ inner → after[outer][field] = value[outer][field]

namespace Within

variable {outer name : String} {inner : List String}

theorem refl (outer : String) (inner : List String) (value : Value) :
    Within outer inner value value :=
  ⟨fun _ _ => rfl, fun _ _ => rfl⟩

theorem trans {middle : Value} {later : List String} (first : Within outer inner value middle)
    (second : Within outer later middle after) : Within outer (inner ++ later) value after := by
  refine ⟨fun field other => ?_, fun field other => ?_⟩
  · rw [second.outside field other, first.outside field other]
  · rw [mem_append, not_or] at other
    rw [second.inside field other.2, first.inside field other.1]

theorem of_assignIn (written : value.assignIn outer name field = some after) :
    Within outer [name] value after :=
  ⟨fun _ other => assignIn_of_ne written other,
    fun _ other => assignIn_inner_of_ne written (mem_singleton.not.mp other)⟩

theorem of_assign_remove (written : value.assign outer (value[outer].remove name) = some after) :
    Within outer [name] value after := by
  refine ⟨fun _ other => assign_of_ne written other, fun other different => ?_⟩
  rw [assign_self written, index_remove_of_ne (mem_singleton.not.mp different)]

theorem of_removeIn (value : Value) (outer name : String) :
    Within outer [name] value (value.removeIn outer name) := by
  refine ⟨fun _ other => removeIn_of_ne other, fun other different => ?_⟩
  rw [removeIn_index, index_remove_of_ne (mem_singleton.not.mp different)]

end Within

end Value

end Json
