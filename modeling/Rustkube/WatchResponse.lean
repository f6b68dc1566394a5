import Rustkube.ListSelector
import Rustkube.Metadata
import Rustkube.WatchEvent

namespace Rustkube.Watch

open Json Storage

/-- serde_json: reading bytes, and the text of a number, an array or an object. -/
structure JsonText where
  parse : Bytes → Option Value
  display : Value → String

/-- What a watch response is rendered with. -/
structure Options where
  labelSelector : Option String
  fieldSelector : Option String
  apiVersion : String
  kind : String
  allowBookmarks : Bool
  metadataOnly : Bool
  transform : Option (Value → Value)
  initial : Option (List Value × Nat)
  initialEndBookmark : Bool

inductive LineType where
  | added
  | modified
  | deleted
  | bookmark
  | error
deriving DecidableEq

/-- One line of the response, before it is written out. -/
structure Line where
  type : LineType
  object : Value

/-- What becomes of one event: a line, nothing, or a panic of the task. -/
inductive Rendered where
  | line (line : Line)
  | filtered
  | panicked

/-- Sets `metadata.resourceVersion` where `metadata` is an object. -/
def injectResourceVersion (obj : Value) (revision : Nat) : Value :=
  match obj.get? "metadata" with
  | some metadata =>
    if metadata.isObject then
      obj.insert "metadata" (metadata.insert "resourceVersion" (.string (toString revision)))
    else obj
  | none => obj

def toPartialObjectMetadata (obj : Value) : Value :=
  .object [("apiVersion", .string "meta.k8s.io/v1"), ("kind", .string "PartialObjectMetadata"),
    ("metadata", (obj.get? "metadata").getD (.object []))]

/-- The namespace, if there is one, and the name of a registry key. The group of a custom resource
is told by its dot. -/
def splitKey (key : String) : Option String × String :=
  let parts := Text.split (Text.trimStartMatches key '/') '/'
  let resourceLen := if (parts[1]?.any fun segment => Text.contains segment '.') then 2 else 1
  match parts.drop (1 + resourceLen) with
  | [ns, name] => (some ns, name)
  | [name] => (none, name)
  | _ => (none, parts.getLast?.getD "")

variable (text : JsonText) (opts : Options)

def Options.matches (obj : Value) : Bool :=
  ListSelector.matchesSelectors text.display obj opts.labelSelector opts.fieldSelector

/-- The type that lines without one of their own get. -/
def Options.typeMeta : String × String :=
  if opts.metadataOnly then ("meta.k8s.io/v1", "PartialObjectMetadata")
  else (opts.apiVersion, opts.kind)

/-- The transformation and the projection of an object that is sent. -/
def Options.project (obj : Value) : Value :=
  let obj := match opts.transform with
    | some transform => transform obj
    | none => obj
  if opts.metadataOnly then toPartialObjectMetadata obj else obj

/-- `apiVersion` and `kind`, for an object that does not say its kind. -/
def Options.backfill (obj : Value) : Option Value :=
  if ((obj.get? "kind").bind Value.asStr?).isNone then do
    let obj ← obj.assign "apiVersion" (.string opts.typeMeta.1)
    obj.assign "kind" (.string opts.typeMeta.2)
  else some obj

/-- A line of a stored object. -/
def Options.objectLine (type : LineType) (obj : Value) : Rendered :=
  match opts.backfill (opts.project obj) with
  | some object => .line ⟨type, object⟩
  | none => .panicked

def Options.renderBookmark (revision : Nat) (initialEnd : Bool) : Line :=
  let annotations := if initialEnd
    then [("annotations", .object [("k8s.io/initial-events-end", .string "true")])] else []
  ⟨.bookmark, .object [("apiVersion", .string opts.typeMeta.1), ("kind", .string opts.typeMeta.2),
    ("metadata", .object (annotations ++ [("resourceVersion", .string (toString revision))]))]⟩

/-- The deletion of an object whose last state nobody held. -/
def Options.tombstone (key : String) (revision : Nat) : Line :=
  let (ns, name) := splitKey key
  let metadata :=
    [("name", Value.string name)] ++ (ns.map fun n => ("namespace", .string n)).toList ++
    [("resourceVersion", .string (toString revision))]
  ⟨.deleted, .object [("apiVersion", .string opts.typeMeta.1), ("kind", .string opts.typeMeta.2),
    ("metadata", .object metadata)]⟩

def renderError (code : Nat) (message : String) : Line :=
  let reason := if code = 410 then "Expired" else "ServiceUnavailable"
  ⟨.error, .object
    [("apiVersion", .string "v1"), ("code", .number code), ("kind", .string "Status"),
    ("message", .string message), ("reason", .string reason), ("status", .string "Failure")]⟩

/-- What a write to an object is to a watch that selects: an object that comes into the selection
is added, one that goes out of it is deleted. -/
def modification (before : Option Bool) (now : Bool) : Option LineType :=
  match before, now with
  | some false, true => some .added
  | _, true => some .modified
  | some true, false => some .deleted
  | _, false => none

def renderEvent (event : WatchEvent) : Rendered :=
  match event with
  | .added _ value revision =>
    let obj := injectResourceVersion ((text.parse value).getD (.object [])) revision
    if opts.matches text obj then opts.objectLine .added obj else .filtered
  | .modified _ value revision prevValue =>
    let obj := injectResourceVersion ((text.parse value).getD (.object [])) revision
    let before := (prevValue.bind text.parse).map (opts.matches text)
    match modification before (opts.matches text obj) with
    | some type => opts.objectLine type obj
    | none => .filtered
  | .deleted key revision prevValue =>
    match (prevValue.bind text.parse).filter Value.isObject with
    | some obj =>
      let obj := injectResourceVersion obj revision
      if opts.matches text obj then opts.objectLine .deleted obj else .filtered
    | none => .line (opts.tombstone key revision)
  | .error code message _ => .line (renderError code message)
  | .bookmark revision => .line (opts.renderBookmark revision false)

/-- An object's own `resourceVersion`, if it has one. -/
def versionOf (obj : Value) : Option String :=
  ((obj.get? "metadata").bind (·.get? "resourceVersion")).bind Value.asStr? |>.filter (· ≠ "")

/-- An object of the initial list. -/
def renderInitialAdded (obj : Value) (listRev : Nat) : Rendered :=
  match opts.backfill obj with
  | none => .panicked
  | some obj =>
    let obj := if (versionOf obj).isSome then obj else injectResourceVersion obj listRev
    if opts.matches text obj then .line ⟨.added, opts.project obj⟩ else .filtered

/-- A line that was sent, and the revision that it stands for. -/
structure Sent where
  line : Line
  revision : Nat

/-- What the task that writes the response meets: an event, an idle heartbeat, or the end (the
deadline, a client that is gone, a stream that is closed). -/
inductive Input where
  | event (event : WatchEvent)
  | tick
  | stop

structure Task where
  lastRev : Nat
  sent : List Sent
  running : Bool

def Rendered.sent (revision : Nat) : Rendered → List Sent
  | .line shown => [⟨shown, revision⟩]
  | _ => []

def Rendered.panics : Rendered → Bool
  | .panicked => true
  | _ => false

/-- The revision an object of the initial list is of. -/
def itemRevision (listRev : Nat) (obj : Value) : Nat :=
  ((versionOf obj).bind parseU64Text).getD listRev

/-- The initial objects, until one panics. -/
def initialSent (listRev : Nat) : List Value → List Sent × Bool
  | [] => ([], true)
  | obj :: rest =>
    let rendered := renderInitialAdded text opts obj listRev
    if rendered.panics then ([], false)
    else
      let (sent, finished) := initialSent listRev rest
      (rendered.sent (itemRevision listRev obj) ++ sent, finished)

/-- The task when it gets to the live events. With `expired`, the deadline passes after so many of
the initial objects. -/
def begin (expired : Option Nat) : Task :=
  match opts.initial with
  | none => ⟨0, [], true⟩
  | some (items, listRev) =>
    match expired.filter (· < items.length) with
    | some count => ⟨0, (initialSent text opts listRev (items.take count)).1, false⟩
    | none =>
      let (sent, finished) := initialSent text opts listRev items
      if finished then
        let ending := if opts.initialEndBookmark
          then [⟨opts.renderBookmark listRev true, listRev⟩] else []
        ⟨listRev, sent ++ ending, true⟩
      else ⟨0, sent, false⟩

def Task.step (task : Task) (input : Input) : Task :=
  if !task.running then task
  else
    match input with
    | .event event =>
      let rendered := renderEvent text opts event
      { lastRev := event.revision
        sent := task.sent ++ rendered.sent event.revision
        running := !event.isError && !rendered.panics }
    | .tick =>
      if opts.allowBookmarks then
        { task with sent := task.sent ++ [⟨opts.renderBookmark task.lastRev false, task.lastRev⟩] }
      else task
    | .stop => { task with running := false }

/-- `watch_response`: everything that is sent. -/
def watchResponse (expired : Option Nat) (inputs : List Input) : List Sent :=
  (inputs.foldl (Task.step text opts) (begin text opts expired)).sent

/-- The parameters of a watch request that say where it starts. -/
structure WatchParams where
  resourceVersion : Option Nat
  sendInitialEvents : Bool
  allowWatchBookmarks : Bool
  labelSelector : Option String
  fieldSelector : Option String

/-- Without a version, or with 0, a watch starts with the current state. -/
def WatchParams.wantsInitialState (params : WatchParams) : Bool :=
  params.sendInitialEvents || params.resourceVersion.all (· == 0)

/-- `watch_prefix`: the options of the response, and the revision the live stream is opened at.
`listing` is the list of the prefix in the datastore with its revision. -/
def watchPrefix (params : WatchParams) (listing : List Value × Nat) (apiVersion kind : String)
    (metadataOnly : Bool) (transform : Option (Value → Value)) : Options × Nat :=
  let initial := if params.wantsInitialState then some listing else none
  ({ labelSelector := params.labelSelector
     fieldSelector := params.fieldSelector
     apiVersion, kind
     allowBookmarks := params.allowWatchBookmarks
     metadataOnly, transform, initial
     initialEndBookmark := params.sendInitialEvents },
    match initial with
    | some (_, revision) => revision
    | none => params.resourceVersion.getD 0)

end Rustkube.Watch
