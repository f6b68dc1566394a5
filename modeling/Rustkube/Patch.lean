import Mathlib.Data.List.Sort
import Rustkube.Storage

namespace Rustkube.Patch

open List Json Storage Value Fields

mutual

/-- `json_patch::merge`: RFC 7386. -/
def merge (target : Value) : (patch : Value) → Value
  | .object fields => .object (mergeFields (target.asObject?.getD []) fields)
  | patch => patch

def mergeFields (target : Fields) : List (String × Value) → Fields
  | [] => target
  | (key, value) :: rest =>
    mergeFields (if value.isNull then Fields.remove key target
      else Fields.insert key (merge ((target.get? key).getD .null) value) target) rest

end

section

variable {fields : Fields} {name : String} {value : Value}

theorem get?_mergeFields_of_absent (target : Fields) (absent : fields.lookup name = none) :
    get? (mergeFields target fields) name = get? target name := by
  induction fields generalizing target with
  | nil => simp [mergeFields]
  | cons head rest ih =>
    have ⟨key, value⟩ := head
    by_cases apart : name = key
    · simp [apart] at absent
    · rw [lookup_cons_of_ne apart] at absent
      rw [mergeFields, ih _ absent]
      split_ifs
      · exact Fields.get?_remove_of_ne apart
      · exact Fields.get?_insert_of_ne apart

theorem get?_mergeFields (target : Fields)
    (distinct : (fields.map Prod.fst).Nodup) (set : fields.lookup name = some value)
    (present : value.isNull = false) :
    get? (mergeFields target fields) name =
      some (merge ((get? target name).getD .null) value) := by
  induction fields generalizing target with
  | nil => cases set
  | cons head rest ih =>
    have ⟨key, first⟩ := head
    have ⟨fresh, distinct⟩ := nodup_cons.mp distinct
    by_cases apart : name = key
    · subst apart
      obtain rfl : first = value := by simpa using set
      have absent : rest.lookup name = none := by
        rw [lookup_eq_none_iff]
        intro entry member
        have : name ≠ entry.1 := fun isName => fresh (mem_map.mpr ⟨entry, member, isName.symm⟩)
        simpa using this
      rw [mergeFields, get?_mergeFields_of_absent _ absent, if_neg (by simp [present])]
      exact get?_insert_self
    · rw [lookup_cons_of_ne apart] at set
      rw [mergeFields, ih _ distinct set]
      split_ifs
      · rw [Fields.get?_remove_of_ne apart]
      · rw [Fields.get?_insert_of_ne apart]

variable (target : Value)

include target

theorem asObject_get? (name : String) :
    (get? (target.asObject?.getD []) name).getD .null = target[name] := by
  cases target <;> rfl

theorem merge_index_of_absent (absent : fields.lookup name = none) :
    (merge target (.object fields))[name] = target[name] := by
  rw [merge, index_object, get?_mergeFields_of_absent _ absent, asObject_get?]

theorem merge_index (distinct : (fields.map Prod.fst).Nodup)
    (set : fields.lookup name = some value) (present : value.isNull = false) :
    (merge target (.object fields))[name] = merge target[name] value := by
  rw [merge, index_object, get?_mergeFields _ distinct set present, asObject_get?]
  rfl

@[simp] theorem merge_string (text : String) : merge target (.string text) = .string text := by
  simp [merge]

end

mutual

/-- Recursively merge `src` into `dst`. A `null` is a value like any other. -/
def mergeJson (dst : Value) : (src : Value) → Value
  | .object fields =>
    match dst with
    | .object into => .object (mergeJsonFields into fields)
    | _ => .object fields
  | src => src

def mergeJsonFields (into : Fields) : List (String × Value) → Fields
  | [] => into
  | (key, value) :: rest =>
    mergeJsonFields (Fields.insert key (mergeJson ((into.get? key).getD .null) value) into) rest

end

/-- What identifies an element of a list that is merged by key. -/
inductive MergeKey where
  | field (name : String)
  /-- A Service's ports: by number and protocol. -/
  | portProtocol
deriving DecidableEq

def NAMED_LISTS : List String := ["containers", "initContainers", "ephemeralContainers", "volumes",
  "volumeMounts", "imagePullSecrets", "env", "envFrom"]

/-- The list fields that are merged by key. Any other list is replaced whole. -/
def strategicMergeKey (field : String) : Option MergeKey :=
  if field = "conditions" then some (.field "type")
  else if NAMED_LISTS.contains field then some (.field "name")
  else if field = "ports" then some (.field "containerPort")
  else if field = "ownerReferences" then some (.field "uid")
  else if field = "hostAliases" then some (.field "ip")
  else if field = "topologySpreadConstraints" then some (.field "topologyKey")
  else none

/-- Which key a `ports` list merges on: a container's ports always carry `containerPort`. -/
def portsKey (lists : List (List Value)) : MergeKey :=
  if lists.any fun list => list.any fun port => (port.get? "containerPort").isSome then
    .field "containerPort"
  else .portProtocol

/-- An element's identity under `key`. -/
def mergeId (key : MergeKey) (element : Value) : Option Value :=
  match key with
  | .portProtocol => (element.get? "port").map fun port =>
      let protocol := ((element.get? "protocol").bind Value.asStr?).getD "TCP"
      .array [port, .string protocol]
  | .field name => element.get? name

/-- List fields merged as a set of scalars. -/
def strategicMergeSet (field : String) : Bool := field == "finalizers"

def directive (value : Value) : Option String := (value.get? "$patch").bind Value.asStr?

def isDirective (key : String) : Bool := Text.startsWith key "$"

mutual

/-- A patch value stored as data: without the directive keys it may carry. -/
def stripDirectives : Value → Value
  | .object fields => .object (stripFields fields)
  | .array items => .array (stripItems items)
  | value => value

def stripFields : List (String × Value) → List (String × Value)
  | [] => []
  | (key, value) :: rest =>
    if isDirective key then stripFields rest else (key, stripDirectives value) :: stripFields rest

def stripItems : List Value → List Value
  | [] => []
  | item :: rest =>
    if (item.get? "$patch").isNone || item.asObject?.any (fun fields => 1 < fields.length) then
      stripDirectives item :: stripItems rest
    else stripItems rest

end

def addMissing (list values : List Value) : List Value :=
  values.foldl (fun list value => if list.contains value then list else list ++ [value]) list

/-- Order `list` as `order` names its elements; those it does not name keep their place after. -/
def setElementOrder (list order : List Value) (key : Option MergeKey) : List Value :=
  let id (element : Value) : Value := match key with
    | some key => (mergeId key element).getD .null
    | none => element
  let rank (element : Value) : Nat := (order.map id).idxOf (id element)
  list.insertionSort fun left right => rank left ≤ rank right

/-- The key two lists of the field `name` merge on. -/
def listKey (name : String) (target patch : List Value) : Option MergeKey :=
  if name = "ports" then some (portsKey [target, patch]) else strategicMergeKey name

/-- One directive of a patch, after its fields are merged. -/
def applyDirective (target : Fields) (key : String) (value : Value) : Fields :=
  match Text.stripPrefix key "$deleteFromPrimitiveList/" with
  | some field =>
    match (target.get? field).bind Value.asArray?, value.asArray? with
    | some list, some gone =>
      Fields.insert field (.array (list.filter fun item => !gone.contains item)) target
    | _, _ => target
  | none =>
    match Text.stripPrefix key "$setElementOrder/" with
    | some field =>
      match (target.get? field).bind Value.asArray?, value.asArray? with
      | some list, some order =>
        Fields.insert field (.array (setElementOrder list order (listKey field list order))) target
      | _, _ => target
    | none => target

def retainKeys (target patch : Fields) : Fields :=
  match (patch.get? "$retainKeys").bind Value.asArray? with
  | some keep => target.filter fun entry => keep.contains (.string entry.1)
  | none => target

/-- The directives of `patch` on what its fields were merged into. -/
def finish (patch merged : Fields) : Value :=
  let directed := patch.foldl (fun target entry => applyDirective target entry.1 entry.2) merged
  .object (retainKeys directed patch)

mutual

/-- Strategic merge patch: objects are merged, lists that have a key merged by it, anything else
overwritten; `null` deletes; the `$` directives are obeyed and never stored. -/
def strategicMerge (target : Value) : (patch : Value) → Value
  | .object fields =>
    if directive (.object fields) = some "replace" then stripDirectives (.object fields)
    else finish fields (strategicFields (target.asObject?.getD []) fields)
  | patch => patch

/-- What a field whose patch is `value` becomes, when it is not deleted. -/
def strategicValue (key : String) (current : Option Value) : (value : Value) → Value
  | .array items =>
    match current.bind Value.asArray? with
    | some list =>
      match listKey key list items with
      | some mergeKey =>
        if items.any fun item => directive item == some "replace" then
          .array ((items.filter fun item => (directive item).isNone).map stripDirectives)
        else .array (strategicList mergeKey list items)
      | none =>
        if strategicMergeSet key then .array (addMissing list items)
        else stripDirectives (.array items)
    | none => stripDirectives (.array items)
  | .object fields =>
    match current.bind Value.asObject? with
    | some inner =>
      if directive (.object fields) = some "replace" then stripDirectives (.object fields)
      else finish fields (strategicFields inner fields)
    | none => stripDirectives (.object fields)
  | value => value

def strategicFields (target : Fields) : List (String × Value) → Fields
  | [] => target
  | (key, value) :: rest =>
    strategicFields
      (if isDirective key then target
        else if value.isNull || directive value == some "delete" then Fields.remove key target
        else Fields.insert key (strategicValue key (target.get? key) value) target) rest

/-- Upsert each item by its key; `$patch: delete` removes the entry of that key. -/
def strategicList (key : MergeKey) (target : List Value) : List Value → List Value
  | [] => target
  | item :: rest =>
    strategicList key
      (if directive item == some "delete" then
          match mergeId key item with
          | some id => target.filter fun element => mergeId key element != some id
          | none => target
        else
          match (mergeId key item).bind fun id =>
            target.findIdx? fun element => mergeId key element == some id with
          | some i => target.modify i fun existing => strategicMerge existing item
          | none => target ++ [stripDirectives item]) rest

end

/-- A reference token of a JSON pointer, unescaped: `~1` is `/` and `~0` is `~`. -/
def unescapeToken : List Char → List Char
  | '~' :: '1' :: rest => '/' :: unescapeToken rest
  | '~' :: '0' :: rest => '~' :: unescapeToken rest
  | char :: rest => char :: unescapeToken rest
  | [] => []

/-- An array index of a pointer: no sign, no leading zero. -/
def parseIndex (token : String) : Option Nat :=
  if Text.startsWith token "+" || (Text.startsWith token "0" && token.length ≠ 1) then none
  else if token ≠ "" ∧ token.toList.all Storage.isDigit then Storage.parseU64 token
  else none

def follow (target : Value) : List String → Option Value
  | [] => some target
  | token :: rest =>
    match target with
    | .object fields => (Fields.get? fields token).bind fun value => follow value rest
    | .array items => (parseIndex token).bind fun i => items[i]?.bind fun value => follow value rest
    | _ => none

def pointer (target : Value) (path : String) : Option Value :=
  if path = "" then some target
  else
    match Text.split path '/' with
    | "" :: tokens =>
      follow target (tokens.map fun token => String.ofList (unescapeToken token.toList))
    | _ => none

/-- `path[..i]` for the last `/` at `i`; nothing when there is none before it. -/
def parentPath (path : String) : String :=
  "/".intercalate (Text.split path '/').dropLast

def opName (op : Value) : Option String := (op.get? "op").bind Value.asStr?

def opPath (op : Value) : Option String := (op.get? "path").bind Value.asStr?

/-- A `test` for nothing: `null`, an empty list or an empty object. -/
def testsNothing (op : Value) : Bool :=
  match op.get? "value" with
  | none => true
  | some .null => true
  | some (.array items) => items.isEmpty
  | some (.object fields) => fields.isEmpty
  | some _ => false

/-- A `test` for nothing at an absent path holds and is dropped. -/
def keepsTest (target op : Value) : Bool :=
  opName op != some "test" || !testsNothing op ||
    match opPath op with
    | some path => (pointer target path).isSome
    | none => true

/-- `replace` of an absent member whose parent exists becomes `add`. -/
def replaceAsAdd (target op : Value) : Value :=
  if opName op = some "replace" then
    match opPath op with
    | some path =>
      if (pointer target path).isSome then op
      else
        let parent := parentPath path
        if parent = "" || (pointer target parent).isSome then op.insert "op" (.string "add")
        else op
    | none => op
  else op

/-- The leniency kube-apiserver has with a JSON patch and the `json_patch` crate lacks. -/
def normalizeJsonPatch (target ops : Value) : Value :=
  match ops with
  | .array ops => .array ((ops.filter (keepsTest target)).map (replaceAsAdd target))
  | ops => ops

/-- The formats of a PATCH, by the media type of its body. -/
inductive Format where
  | json
  | apply
  | strategic
  | merge
deriving DecidableEq

def Format.ofContentType (contentType : String) : Format :=
  let mediaType := Text.trim (Text.upTo contentType ';')
  if mediaType = "application/json-patch+json" then .json
  else if mediaType = "application/apply-patch+yaml" then .apply
  else if mediaType = "application/strategic-merge-patch+json" then .strategic
  else .merge

/-- The parsers, and `json_patch`: whether operations decode to a patch, and what it does. -/
structure Codec where
  parseJson : Bytes → Except String Value
  parseYaml : Bytes → Except String Value
  decodes : (ops : Value) → Except String Unit
  patch : (ops target : Value) → Except String Value
  /-- The first 400 characters of a body, for messages. -/
  excerpt : Bytes → String

def orInvalid {α : Type} (context : String) : Except String α → Except Failure α
  | .ok value => .ok value
  | .error why => refuse .invalid (context ++ why)

variable (codec : Codec)

def applyJsonPatch (target : Value) (body : Bytes) (quoted : String) : Except Failure Value := do
  let ops ← orInvalid "invalid JSON Patch: " (codec.parseJson body)
  let ops := normalizeJsonPatch target ops
  orInvalid "invalid JSON Patch: " (codec.decodes ops)
  match codec.patch ops target with
  | .ok patched => pure patched
  | .error why => refuse .invalid ("JSON Patch could not be applied: " ++ why ++ quoted)

def applyPatchBody (target : Value) (contentType : String) (body : Bytes) :
    Except Failure Value :=
  match Format.ofContentType contentType with
  | .json => applyJsonPatch codec target body (" — patch was: " ++ codec.excerpt body)
  | .apply => do
    let patch ← orInvalid "invalid apply patch: " (codec.parseYaml body)
    pure (merge target patch)
  | .strategic => do
    let patch ← orInvalid "invalid strategic merge patch: " (codec.parseJson body)
    pure (strategicMerge target patch)
  | .merge => do
    let patch ← orInvalid "invalid merge patch: " (codec.parseJson body)
    pure (merge target patch)

/-- The `resourceVersion` a patch names, if it names one. A JSON patch has none. -/
def patchPrecondition (contentType : String) (body : Bytes) : Option String :=
  let parsed := match Format.ofContentType contentType with
    | .json => none
    | .apply => (codec.parseYaml body).toOption
    | _ => (codec.parseJson body).toOption
  (parsed.bind fun doc => doc["metadata"]["resourceVersion"].asStr?).filter (· ≠ "")

end Rustkube.Patch
