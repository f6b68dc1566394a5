import Rustkube.WatchResponse

namespace Rustkube.Watch

open Rendered List Json

/-- The events among what the task meets. -/
def inputEvents (inputs : List Input) : List WatchEvent :=
  inputs.filterMap fun input => match input with
    | .event event => some event
    | _ => none

/-- Whether an event is about an object. -/
def ofObject : WatchEvent → Bool
  | .bookmark _ => false
  | .error _ _ _ => false
  | _ => true

/-- The events of a stream opened at `start`: above it, and in the order of their revisions. -/
structure Feed (start : Nat) (inputs : List Input) : Prop where
  above : ∀ event ∈ inputEvents inputs, event.isError = false → start < event.revision
  rising : (inputEvents inputs).Pairwise fun earlier later =>
    earlier.isError = false → later.isError = false → earlier.revision < later.revision

/-- Whether the first thing the task meets is a heartbeat. -/
def idleFirst : List Input → Bool
  | .tick :: _ => true
  | _ => false

section

variable (text : JsonText) (opts : Options) (start : Nat) (inputs : List Input)

/-- A client that resumes at the bookmark misses nothing and goes back nowhere: it is not below the
start of the watch or anything sent before, and what it covers was sent before it. -/
structure SafeBookmark (before : List Sent) (revision : Nat) : Prop where
  started : start ≤ revision
  rising : ∀ earlier ∈ before, earlier.revision ≤ revision
  covered : ∀ event ∈ inputEvents inputs, ofObject event = true → event.revision ≤ revision →
    ∀ line, renderEvent text opts event = .line line → ⟨line, event.revision⟩ ∈ before
  listed : ∀ items listRev, opts.initial = some (items, listRev) → ∀ item ∈ items,
    ∀ line, renderInitialAdded text opts item listRev = .line line →
      ⟨line, itemRevision listRev item⟩ ∈ before

def SafeBookmarks (sent : List Sent) : Prop :=
  ∀ before bookmark after, sent = before ++ bookmark :: after → bookmark.line.type = .bookmark →
    SafeBookmark text opts start inputs before bookmark.revision

variable {text opts start inputs}

theorem SafeBookmarks.append {sent : List Sent} {last : Sent}
    (safe : SafeBookmarks text opts start inputs sent)
    (isSafe : last.line.type = .bookmark → SafeBookmark text opts start inputs sent last.revision) :
    SafeBookmarks text opts start inputs (sent ++ [last]) := by
  intro before bookmark after split isBookmark
  rcases eq_nil_or_concat after with rfl | ⟨init, final, rfl⟩
  · obtain ⟨rfl, same⟩ := append_inj' split (by simp)
    obtain rfl : last = bookmark := by simpa using same
    exact isSafe isBookmark
  · have regrouped : sent ++ [last] = (before ++ bookmark :: init) ++ [final] := by
      simpa using split
    obtain ⟨same, -⟩ := append_inj' regrouped (by simp)
    exact safe before bookmark init same isBookmark

theorem SafeBookmarks.append_plain {sent new : List Sent}
    (safe : SafeBookmarks text opts start inputs sent)
    (plain : ∀ entry ∈ new, entry.line.type ≠ .bookmark) :
    SafeBookmarks text opts start inputs (sent ++ new) := by
  induction new generalizing sent with
  | nil => simpa using safe
  | cons entry rest ih =>
    have first : SafeBookmarks text opts start inputs (sent ++ [entry]) :=
      safe.append fun isBookmark => absurd isBookmark (plain entry (.head _))
    have rest := ih first fun later member => plain later (.tail _ member)
    simpa using rest

end

section

variable {text : JsonText} {opts : Options} {line : Line} {obj : Value}

theorem objectLine_type {type : LineType}
    (rendered : opts.objectLine type obj = .line line) : line.type = type := by
  unfold Options.objectLine at rendered
  split at rendered
  · rw [← Rendered.line.inj rendered]
  · simp at rendered

theorem modification_ne_bookmark (before : Option Bool) (now : Bool) :
    modification before now ≠ some .bookmark := by
  rcases before with _ | _ | _ <;> cases now <;> simp [modification]

theorem renderEvent_type {event : WatchEvent} (object : ofObject event = true)
    (rendered : renderEvent text opts event = .line line) : line.type ≠ .bookmark := by
  cases event with
  | added key value revision =>
    simp only [renderEvent] at rendered
    split_ifs at rendered
    rw [objectLine_type rendered]
    decide
  | modified key value revision prevValue =>
    simp only [renderEvent] at rendered
    split at rendered
    · rename_i type isType
      rw [objectLine_type rendered]
      intro isBookmark
      rw [isBookmark] at isType
      exact modification_ne_bookmark _ _ isType
    · simp at rendered
  | deleted key revision prevValue =>
    simp only [renderEvent] at rendered
    split at rendered
    · split_ifs at rendered
      rw [objectLine_type rendered]
      decide
    · rw [← Rendered.line.inj rendered]
      simp [Options.tombstone]
  | bookmark | error => simp [ofObject] at object

theorem renderInitialAdded_type {listRev : Nat}
    (rendered : renderInitialAdded text opts obj listRev = .line line) : line.type = .added := by
  unfold renderInitialAdded at rendered
  split at rendered
  · simp at rendered
  · dsimp only at rendered
    split_ifs at rendered
    all_goals rw [← Rendered.line.inj rendered]

theorem mem_sent {rendered : Rendered} {revision : Nat} {entry : Sent}
    (member : entry ∈ rendered.sent revision) :
    rendered = .line entry.line ∧ entry.revision = revision := by
  cases rendered with
  | line shown =>
    rw [mem_singleton.mp member]
    exact ⟨rfl, rfl⟩
  | filtered | panicked => simp [sent] at member

end

variable (text : JsonText) (opts : Options) (start : Nat)

/-- A task that is still running: what it has sent, and what it has still to meet. -/
structure Steady (done rest : List Input) (task : Task) : Prop where
  bound : ∀ entry ∈ task.sent, entry.revision ≤ task.lastRev
  covered : ∀ event ∈ inputEvents done, ofObject event = true →
    ∀ line, renderEvent text opts event = .line line → ⟨line, event.revision⟩ ∈ task.sent
  listed : ∀ items listRev, opts.initial = some (items, listRev) → ∀ item ∈ items,
    ∀ line, renderInitialAdded text opts item listRev = .line line →
      ⟨line, itemRevision listRev item⟩ ∈ task.sent
  ahead : ∀ event ∈ inputEvents rest, event.isError = false → task.lastRev < event.revision
  started : start ≤ task.lastRev ∨
    opts.initial = none ∧ (opts.allowBookmarks = false ∨ done = [])

variable {text opts start} {done rest : List Input} {task : Task}

theorem Steady.safe (steady : Steady text opts start done rest task)
    (known : start ≤ task.lastRev) :
    SafeBookmark text opts start (done ++ rest) task.sent task.lastRev where
  started := known
  rising := steady.bound
  covered := by
    intro event member object low line rendered
    rw [inputEvents, filterMap_append] at member
    rcases mem_append.mp member with met | unmet
    · exact steady.covered event met object line rendered
    · have notError :
        event.isError = false := by cases event <;> simp_all [ofObject, WatchEvent.isError]
      have later := steady.ahead event unmet notError
      omega
  listed := steady.listed

theorem inputEvents_event (done rest : List Input) (event : WatchEvent) :
    inputEvents (done ++ .event event :: rest) = inputEvents done ++ event :: inputEvents rest := by
  simp [inputEvents]

theorem Feed.later {event : WatchEvent} (feed : Feed start (done ++ .event event :: rest))
    (notError : event.isError = false) :
    ∀ next ∈ inputEvents rest, next.isError = false → event.revision < next.revision := by
  intro next member plain
  have rising := feed.rising
  rw [inputEvents_event, pairwise_append, pairwise_cons] at rising
  exact rising.2.1.1 next member notError plain

theorem Feed.here {event : WatchEvent} (feed : Feed start (done ++ .event event :: rest))
    (notError : event.isError = false) : start < event.revision :=
  feed.above event (by simp [inputEvents_event]) notError

theorem Steady.safe_upstream {revision : Nat}
    (feed : Feed start (done ++ .event (.bookmark revision) :: rest))
    (steady : Steady text opts start done (.event (.bookmark revision) :: rest) task) :
    SafeBookmark text opts start (done ++ .event (.bookmark revision) :: rest) task.sent
      revision where
  started := Nat.le_of_lt (feed.here rfl)
  rising := by
    intro earlier member
    have bound := steady.bound earlier member
    have ahead := steady.ahead (.bookmark revision) (by simp [inputEvents]) rfl
    exact Nat.le_of_lt (Nat.lt_of_le_of_lt bound ahead)
  covered := by
    intro event member object low line rendered
    rw [inputEvents_event] at member
    rcases mem_append.mp member with met | unmet
    · exact steady.covered event met object line rendered
    · rcases mem_cons.mp unmet with rfl | later
      · simp [ofObject] at object
      · have notError : event.isError = false := by
          cases event <;> simp_all [ofObject, WatchEvent.isError]
        have above := feed.later rfl event later notError
        simp only [WatchEvent.revision] at above low
        omega
  listed := steady.listed

/-- Meeting an event: its line goes out, and the task is at its revision. -/
theorem Steady.event {event : WatchEvent} (feed : Feed start (done ++ .event event :: rest))
    (safe : SafeBookmarks text opts start (done ++ .event event :: rest) task.sent)
    (steady : Steady text opts start done (.event event :: rest) task) :
    SafeBookmarks text opts start (done ++ .event event :: rest)
        (task.sent ++ (renderEvent text opts event).sent event.revision) ∧
      (event.isError = false → Steady text opts start (done ++ [.event event]) rest
        ⟨event.revision, task.sent ++ (renderEvent text opts event).sent event.revision,
            true⟩) := by
  refine ⟨?_, ?_⟩
  · cases event with
    | bookmark revision => exact safe.append fun _ => steady.safe_upstream feed
    | error code message revision =>
      exact safe.append fun isBookmark => by simp [renderError] at isBookmark
    | _ =>
      apply safe.append_plain
      intro entry member
      exact renderEvent_type rfl (mem_sent member).1
  · intro notError
    have above := steady.ahead event (by simp [inputEvents]) notError
    constructor
    · intro entry member
      rcases mem_append.mp member with old | new
      · exact Nat.le_of_lt (Nat.lt_of_le_of_lt (steady.bound entry old) above)
      · exact Nat.le_of_eq (mem_sent new).2
    · intro met member object line rendered
      rw [inputEvents_event] at member
      rcases mem_append.mp member with old | isEvent
      · exact mem_append_left _ (steady.covered met old object line rendered)
      · rw [mem_singleton.mp isEvent] at rendered ⊢
        simp [rendered, sent]
    · intro items listRev isInitial item member line rendered
      exact mem_append_left _ (steady.listed items listRev isInitial item member line rendered)
    · exact feed.later notError
    · exact .inl (Nat.le_of_lt (feed.here notError))

theorem Steady.tick (quiet : opts.initial = none → opts.allowBookmarks = true →
      idleFirst (done ++ .tick :: rest) = false)
    (safe : SafeBookmarks text opts start (done ++ .tick :: rest) task.sent)
    (steady : Steady text opts start done (.tick :: rest) task)
    (allowed : opts.allowBookmarks = true) :
    SafeBookmarks text opts start (done ++ .tick :: rest)
        (task.sent ++ [⟨opts.renderBookmark task.lastRev false, task.lastRev⟩]) ∧
      Steady text opts start (done ++ [.tick]) rest { task with
        sent := task.sent ++ [⟨opts.renderBookmark task.lastRev false, task.lastRev⟩] } := by
  have known : start ≤ task.lastRev := by
    rcases steady.started with known | ⟨none, forbidden | first⟩
    · exact known
    · simp [allowed] at forbidden
    · have idle := quiet none allowed
      simp [first, idleFirst] at idle
  refine ⟨safe.append fun _ => steady.safe known, ?_⟩
  constructor
  · exact forall_mem_concat steady.bound le_rfl
  · intro met member object line rendered
    have old : met ∈ inputEvents done := by simpa [inputEvents] using member
    exact mem_append_left _ (steady.covered met old object line rendered)
  · intro items listRev isInitial item member line rendered
    exact mem_append_left _ (steady.listed items listRev isInitial item member line rendered)
  · exact steady.ahead
  · exact .inl known

/-- What the task has sent is safe, and while it runs it is steady. -/
def Holds (text : JsonText) (opts : Options) (start : Nat) (done rest : List Input) (task : Task) :
    Prop :=
  SafeBookmarks text opts start (done ++ rest) task.sent ∧
    (task.running = true → Steady text opts start done rest task)

theorem Holds.step {input : Input} (feed : Feed start (done ++ input :: rest))
    (quiet : opts.initial = none → opts.allowBookmarks = true →
      idleFirst (done ++ input :: rest) = false)
    (holds : Holds text opts start done (input :: rest) task) :
    Holds text opts start (done ++ [input]) rest (task.step text opts input) := by
  have ⟨safe, running⟩ := holds
  unfold Holds
  rw [append_assoc, singleton_append]
  by_cases isRunning : task.running = true
  · have steady := running isRunning
    cases input with
    | event event =>
      have ⟨sent, still⟩ := steady.event feed safe
      simp only [Task.step, isRunning, Bool.not_true, Bool.false_eq_true, if_false]
      refine ⟨sent, ?_⟩
      intro goes
      have notError : event.isError = false := by
        by_contra isError
        simp [isError] at goes
      have same := still notError
      exact { same with }
    | tick =>
      by_cases allowed : opts.allowBookmarks = true
      · simp only [Task.step, isRunning, allowed, Bool.not_true, Bool.false_eq_true, if_false,
          if_true]
        have ⟨sent, still⟩ := steady.tick quiet safe allowed
        exact ⟨sent, fun _ => { still with }⟩
      · simp only [Task.step, isRunning, allowed, Bool.not_true, Bool.false_eq_true, if_false]
        refine ⟨safe, fun _ => ⟨steady.bound, ?_, steady.listed, steady.ahead, ?_⟩⟩
        · intro met member
          exact steady.covered met (by simpa [inputEvents] using member)
        · exact steady.started.imp id fun fresh => ⟨fresh.1, .inl (by simpa using allowed)⟩
    | stop =>
      simp only [Task.step, isRunning, Bool.not_true, Bool.false_eq_true, if_false]
      exact ⟨safe, by simp⟩
  · simp only [Task.step, isRunning, Bool.not_false, if_true]
    exact ⟨safe, by simp⟩

theorem Holds.run (feed : Feed start (done ++ rest))
    (quiet : opts.initial = none → opts.allowBookmarks = true → idleFirst (done ++ rest) = false)
    (holds : Holds text opts start done rest task) :
    SafeBookmarks text opts start (done ++ rest) (rest.foldl (Task.step text opts) task).sent := by
  induction rest generalizing done task with
  | nil => exact holds.1
  | cons input rest ih =>
    have next := holds.step feed quiet
    rw [append_cons] at feed quiet ⊢
    exact ih feed quiet next

variable {items : List Value} {listRev : Nat}

theorem initialSent_spec :
    (∀ entry ∈ (initialSent text opts listRev items).1, entry.line.type = .added ∧
      ∃ item ∈ items, entry.revision = itemRevision listRev item) ∧
    ((initialSent text opts listRev items).2 = true → ∀ item ∈ items, ∀ line,
      renderInitialAdded text opts item listRev = .line line →
        ⟨line, itemRevision listRev item⟩ ∈ (initialSent text opts listRev items).1) := by
  induction items with
  | nil => simp [initialSent]
  | cons item rest ih =>
    by_cases panics : (renderInitialAdded text opts item listRev).panics = true
    · simp [initialSent, panics]
    · simp only [initialSent, panics, Bool.false_eq_true, if_false]
      refine ⟨?_, ?_⟩
      · intro entry member
        rcases mem_append.mp member with first | later
        · have ⟨rendered, revision⟩ := mem_sent first
          exact ⟨renderInitialAdded_type rendered, item, .head _, revision⟩
        · have ⟨added, other, inside, revision⟩ := ih.1 entry later
          exact ⟨added, other, .tail _ inside, revision⟩
      · intro finished other member line rendered
        rcases mem_cons.mp member with rfl | inside
        · simp [rendered, sent]
        · exact mem_append_right _ (ih.2 finished other inside line rendered)

variable {inputs : List Input}

theorem SafeBookmarks.nil : SafeBookmarks text opts start inputs [] := by
  intro before bookmark after split
  simp at split

theorem initialSent_safe (listRev : Nat) (items : List Value) :
    SafeBookmarks text opts start inputs (initialSent text opts listRev items).1 := by
  have none : SafeBookmarks text opts start inputs [] := .nil
  apply none.append_plain
  intro entry member
  rw [(initialSent_spec.1 entry member).1]
  decide

theorem listed_steady (isInitial : opts.initial = some (items, listRev))
    (feed : Feed listRev inputs) (bound : ∀ item ∈ items, itemRevision listRev item ≤ listRev)
    (finished : (initialSent text opts listRev items).2 = true) :
    Steady text opts listRev [] inputs
      ⟨listRev, (initialSent text opts listRev items).1, true⟩ where
  bound := by
    intro entry member
    obtain ⟨-, item, inside, revision⟩ := initialSent_spec.1 entry member
    rw [revision]
    exact bound item inside
  covered := by simp [inputEvents]
  listed := by
    intro found foundRev same
    obtain ⟨rfl, rfl⟩ : items = found ∧ listRev = foundRev := by simpa [isInitial] using same
    exact initialSent_spec.2 finished
  ahead := feed.above
  started := .inl le_rfl

theorem begin_holds (expired : Option Nat) (feed : Feed start inputs)
    (opened : ∀ items listRev, opts.initial = some (items, listRev) →
      start = listRev ∧ ∀ item ∈ items, itemRevision listRev item ≤ listRev) :
    Holds text opts start [] inputs (begin text opts expired) := by
  unfold begin
  split
  · rename_i none
    refine ⟨.nil, fun _ => ⟨by simp, by simp [inputEvents], by simp [none], ?_, ?_⟩⟩
    · intro event member notError
      exact Nat.lt_of_le_of_lt (Nat.zero_le _) (feed.above event member notError)
    · exact .inr ⟨none, .inr rfl⟩
  · rename_i items listRev isInitial
    obtain ⟨rfl, bound⟩ := opened items listRev isInitial
    split
    · exact ⟨initialSent_safe _ _, by simp⟩
    · dsimp only
      by_cases finished : (initialSent text opts start items).2 = true
      · have steady := listed_steady isInitial feed bound finished
        have safe : SafeBookmarks text opts start inputs (initialSent text opts start items).1 :=
          initialSent_safe _ _
        rw [if_pos finished]
        by_cases ending : opts.initialEndBookmark = true
        · rw [if_pos ending]
          refine ⟨safe.append fun _ => steady.safe le_rfl, fun _ => ?_⟩
          refine ⟨forall_mem_concat steady.bound le_rfl, by simp [inputEvents], ?_, feed.above,
            .inl le_rfl⟩
          · intro found foundRev same item member line rendered
            exact mem_append_left _ (steady.listed found foundRev same item member line rendered)
        · rw [if_neg ending, append_nil]
          exact ⟨safe, fun _ => { steady with }⟩
      · rw [if_neg finished]
        exact ⟨initialSent_safe _ _, by simp⟩

theorem step_sent (text : JsonText) (opts : Options) (task : Task) (input : Input) :
    task.sent <+: (task.step text opts input).sent := by
  unfold Task.step
  by_cases stopped : (!task.running) = true
  · exact ⟨[], by rw [if_pos stopped, append_nil]⟩
  · rw [if_neg stopped]
    cases input with
    | event event => exact prefix_append _ _
    | tick =>
      split_ifs
      · exact prefix_append _ _
      · exact prefix_refl _
    | stop => exact prefix_refl _

theorem foldl_sent (text : JsonText) (opts : Options) (inputs : List Input) (task : Task) :
    task.sent <+: (inputs.foldl (Task.step text opts) task).sent := by
  induction inputs generalizing task with
  | nil => exact prefix_refl _
  | cons input rest ih =>
    exact (step_sent text opts task input).trans (ih (task.step text opts input))

theorem idle_unsafe (expired : Option Nat) (none : opts.initial = none)
    (allowed : opts.allowBookmarks = true) (later : 0 < start) (idle : idleFirst inputs = true) :
    ¬ SafeBookmarks text opts start inputs (watchResponse text opts expired inputs) := by
  intro safe
  cases inputs with
  | nil => simp [idleFirst] at idle
  | cons input rest =>
    cases input with
    | tick =>
      have first : (begin text opts expired).step text opts .tick =
          ⟨0, [⟨opts.renderBookmark 0 false, 0⟩], true⟩ := by
        simp [begin, none, Task.step, allowed]
      have ⟨after, isSent⟩ :=
        foldl_sent text opts rest ⟨0, [⟨opts.renderBookmark 0 false, 0⟩], true⟩
      have sent : watchResponse text opts expired (.tick :: rest) =
          [] ++ ⟨opts.renderBookmark 0 false, 0⟩ :: after := by
        rw [watchResponse, foldl_cons, first, ← isSent]
        rfl
      have started := (safe [] _ after sent rfl).started
      simp only at started
      omega
    | event | stop => simp [idleFirst] at idle

attribute [local simp] watchPrefix

/-- The bookmarks of a watch are safe to resume from exactly when the watch starts with the current
state, does not ask for bookmarks, or meets an event, or its end, before the first heartbeat. -/
theorem bookmarks_safe_iff (text : JsonText) (params : WatchParams) (listing : List Value × Nat)
    (apiVersion kind : String) (metadataOnly : Bool) (transform : Option (Value → Value))
    (expired : Option Nat) (inputs : List Input)
    (listed : ∀ item ∈ listing.1, itemRevision listing.2 item ≤ listing.2)
    (feed : Feed (watchPrefix params listing apiVersion kind metadataOnly transform).2 inputs) :
    SafeBookmarks text (watchPrefix params listing apiVersion kind metadataOnly transform).1
        (watchPrefix params listing apiVersion kind metadataOnly transform).2 inputs
        (watchResponse text (watchPrefix params listing apiVersion kind metadataOnly transform).1
          expired inputs) ↔
      (params.wantsInitialState || !params.allowWatchBookmarks || !idleFirst inputs) = true := by
  have opened : ∀ items listRev,
      (watchPrefix params listing apiVersion kind metadataOnly transform).1.initial =
        some (items, listRev) →
      (watchPrefix params listing apiVersion kind metadataOnly transform).2 = listRev ∧
        ∀ item ∈ items, itemRevision listRev item ≤ listRev := by
    intro items listRev isInitial
    by_cases wants : params.wantsInitialState = true
    · obtain rfl : listing = (items, listRev) := by simpa [wants] using isInitial
      exact ⟨by simp [wants], listed⟩
    · simp [wants] at isInitial
  have begun : Holds text _ _ [] inputs (begin text _ expired) := begin_holds expired feed opened
  constructor
  · intro safe
    by_contra failed
    simp only [Bool.or_eq_true, Bool.not_eq_true', not_or, Bool.not_eq_true,
      Bool.not_eq_false] at failed
    have ⟨⟨wants, allowed⟩, idle⟩ := failed
    refine idle_unsafe expired ?_ allowed ?_ idle safe
    · simp [wants]
    · have named := wants
      simp only [WatchParams.wantsInitialState, Bool.or_eq_false_iff] at named
      cases version : params.resourceVersion with
      | none => simp [version] at named
      | some revision =>
        have positive : revision ≠ 0 := by simpa [version] using named.2
        simpa [wants, version] using Nat.pos_of_ne_zero positive
  · intro condition
    refine begun.run feed ?_
    intro none allowed
    have plain : params.wantsInitialState = false := by
      by_contra wants
      simp [wants] at none
    have asked : params.allowWatchBookmarks = true := allowed
    simpa [plain, asked] using condition

/-- A Pod as it is stored. -/
def sampleBytes : Storage.Bytes :=
  Text.utf8 "\x7b\"kind\":\"Pod\",\"metadata\":\x7b\"name\":\"a\"\x7d\x7d"

/-- A reader of that Pod, and no text of numbers or lists. -/
def sampleText : JsonText where
  parse bytes := if bytes = sampleBytes then
    some (.object [("kind", .string "Pod"), ("metadata", .object [("name", .string "a")])])
      else none
  display _ := ""

def resumed : WatchParams where
  resourceVersion := some 42
  sendInitialEvents := false
  allowWatchBookmarks := true
  labelSelector := none
  fieldSelector := none

/-- A watch from revision 42 that meets an event before its first heartbeat. -/
theorem bookmarks_safe_iff_event :
    SafeBookmarks sampleText (watchPrefix resumed ([], 50) "v1" "Pod" false none).1 42
      [.event (.added "/registry/pods/default/a" sampleBytes 43), .tick]
      (watchResponse sampleText (watchPrefix resumed ([], 50) "v1" "Pod" false none).1 none
        [.event (.added "/registry/pods/default/a" sampleBytes 43), .tick]) := by
  refine (bookmarks_safe_iff sampleText resumed ([], 50) "v1" "Pod" false none none
    [.event (.added "/registry/pods/default/a" sampleBytes 43), .tick] (by simp) ⟨?_, ?_⟩).mpr rfl
  · intro event member notError
    obtain rfl : event = .added "/registry/pods/default/a" sampleBytes 43 := by
      simpa [inputEvents] using member
    decide
  · simp [inputEvents]

/-- A watch from revision 42 on which nothing happens for a heartbeat: the bookmark has revision 0,
which is below its start. -/
theorem bookmark_below_start :
    (watchResponse sampleText (watchPrefix resumed ([], 50) "v1" "Pod" false none).1 none
        [.tick]).map (fun sent => (sent.line.type, sent.revision)) = [(.bookmark, 0)] ∧
      (watchPrefix resumed ([], 50) "v1" "Pod" false none).2 = 42 ∧
      ¬ SafeBookmarks sampleText (watchPrefix resumed ([], 50) "v1" "Pod" false none).1 42
        [.tick] (watchResponse sampleText
          (watchPrefix resumed ([], 50) "v1" "Pod" false none).1 none [.tick]) := by
  refine ⟨rfl, rfl, ?_⟩
  intro safe
  have started := (safe [] _ [] rfl rfl).started
  exact absurd started (by decide)

end Rustkube.Watch
