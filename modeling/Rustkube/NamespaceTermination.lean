import Rustkube.ControllerObjects
import Mathlib.Data.List.NodupEquivFin

/- A namespace that terminates is emptied: its Pods first, then the rest, and its finalizer goes
when nothing is left. -/
namespace Rustkube.NamespaceTermination

open List Transition Json Controllers

/-- A resource of discovery: its API root and its name. -/
abbrev Resource := String × String

def podsResource : Resource := ("/api/v1", "pods")

/-- The namespaced resources of a group version that can be listed and deleted, subresources
apart. -/
def collectNamespaced (apiRoot : String) (doc : Value) : Option (List Resource) :=
  doc["resources"].asArray?.map fun resources =>
    (resources.filter fun resource =>
      let name := textOf resource["name"]
      let verbs := resource["verbs"].asArray?.getD []
      resource["namespaced"].asBool? = some true ∧ name ≠ "" ∧ '/' ∉ name.toList ∧
        .string "list" ∈ verbs ∧ .string "delete" ∈ verbs).map fun resource =>
          (apiRoot, textOf resource["name"])

/-- Every such resource, of the core group and of the preferred version of each other group. One
document that cannot be read is enough for no answer. -/
def discoverNamespacedResources (documents : String → Option Value) : Option (List Resource) := do
  let core ← (documents "/api/v1").bind (collectNamespaced "/api/v1")
  let groups ← (documents "/apis").bind (·["groups"].asArray?)
  groups.foldlM (fun found group =>
    match group["preferredVersion"]["groupVersion"].asStr? with
    | some version => ((documents ("/apis/" ++ version)).bind
        (collectNamespaced ("/apis/" ++ version))).map (found ++ ·)
    | none => some found) core

def terminating (ns : Value) : Bool :=
  isDeleting ns || decide (ns["status"]["phase"] = .string "Terminating")

def collectionPath (ns : Value) (resource : Resource) : String :=
  resource.1 ++ "/namespaces/" ++ nameOf ns ++ "/" ++ resource.2

/-- The Namespace without its finalizers, of the version that was observed. -/
def finalizeBody (ns : Value) : Value :=
  .object [("apiVersion", .string "v1"), ("kind", .string "Namespace"),
    ("metadata", .object [("name", .string (nameOf ns)), ("uid", ns["metadata"]["uid"]),
      ("resourceVersion", ns["metadata"]["resourceVersion"])]),
    ("spec", .object [("finalizers", .array [])])]

section

/-- Where a pass is: it reads the feeds and purges what they hold, then lists everything
authoritatively and sweeps what is there, then clears the finalizer. -/
inductive Stage where
  | feed (todo : List Nat) (remaining : Nat)
  | purge (index : Nat) (items : List Value) (todo : List Nat) (remaining : Nat) (podsLeft : Bool)
  | list (todo : List Nat) (remaining : Nat)
  | sweep (index : Nat) (items : List Value) (todo : List Nat) (remaining : Nat)
  | finalize

structure Pass where
  ns : Value
  stage : Stage

/-- What the feeds hold of the namespace, a feed that is not synced having no answer, and what a
list would return; with the pass's most recent read of the Pods, and what its lists returned. -/
structure State where
  resources : List Resource
  feeds : Nat → Option (List Value)
  lists : Nat → Option (List Value)
  pass : Option Pass
  podsSeen : Option Nat
  listed : List (Nat × Nat)

variable (resources : List Resource)

def podsIndex : Option Nat := resources.findIdx? (· = podsResource)

/-- The Pods go first. -/
def order : List Nat :=
  (podsIndex resources).toList ++
    (List.range resources.length).filter fun index => some index ≠ podsIndex resources

def isPods (index : Nat) : Bool := resources[index]? = some podsResource

/-- `Terminate::reconcile` and `terminate_namespace`, from one request to the next. -/
inductive Request where
  | delete (index : Nat) (path : String) (item : Value)
  | finalize (path : String) (body : Value)

variable (state : State) (pass : Pass)

def itemPath (index : Nat) (item : Value) : String :=
  collectionPath pass.ns (state.resources[index]?.getD ("", "")) ++ "/" ++ nameOf item

/-- What the pass sends next. The feeds' items are not deleted twice, and the lists' only by
name. -/
def request : Option Request :=
  match pass.stage with
  | .purge index (item :: _) _ _ _ =>
    if isDeleting item then none else some (.delete index (itemPath state pass index item) item)
  | .sweep index (item :: _) _ _ =>
    if item["metadata"]["name"].asStr?.isNone then none
    else some (.delete index (itemPath state pass index item) item)
  | .finalize =>
    some (.finalize ("/api/v1/namespaces/" ++ nameOf pass.ns ++ "/finalize") (finalizeBody pass.ns))
  | _ => none

def State.reads (index count : Nat) : State :=
  if isPods state.resources index then { state with podsSeen := some count } else state

def State.enters (stage : Stage) : State := { state with pass := some { pass with stage } }

def State.ended : State := { state with pass := none }

/-- The pass goes on by one read or one request. Where a feed has no answer, a list fails, or a
delete of what a feed holds is not answered, the pass fails; the confirmation ignores what becomes
of its deletes. -/
def advance (served : Bool) : State :=
  match pass.stage with
  | .feed [] remaining =>
    if remaining = 0 then state.enters pass (.list (List.range state.resources.length) 0)
      else state.ended
  | .feed (index :: todo) remaining =>
    match state.feeds index with
    | some items =>
      (state.reads index items.length).enters pass
        (.purge index items todo (remaining + items.length)
        (some index = podsIndex state.resources && !items.isEmpty))
    | none => state.ended
  | .purge _ [] todo remaining podsLeft =>
    if podsLeft then state.ended else state.enters pass (.feed todo remaining)
  | .purge index (item :: items) todo remaining podsLeft =>
    if isDeleting item || served then state.enters pass (.purge index items todo remaining podsLeft)
    else state.ended
  | .list [] remaining => if remaining = 0 then state.enters pass .finalize else state.ended
  | .list (index :: todo) remaining =>
    match state.lists index with
    | some items =>
      { (state.reads index items.length).enters pass
          (.sweep index items todo (remaining + items.length)) with
        listed := (index, items.length) :: state.listed }
    | none => state.ended
  | .sweep _ [] todo remaining => state.enters pass (.list todo remaining)
  | .sweep index (_ :: items) todo remaining =>
    state.enters pass (.sweep index items todo remaining)
  | .finalize => state.ended

inductive Action where
  | start (ns : Value)
  | next (served : Bool)
  /-- the pass is cut off -/
  | stop
  /-- others write, and watch events arrive -/
  | change (feeds lists : Nat → Option (List Value))
  /-- discovery has changed, and new workers take over -/
  | discover (documents : String → Option Value)

def step : Action → Option State
  | .start ns =>
    if state.pass.isNone then
      some (if terminating ns then
        { state with
          pass := some ⟨ns, .feed (order state.resources) 0⟩
          podsSeen := none
          listed := [] } else state)
    else none
  | .next served => state.pass.map fun pass => advance state pass served
  | .stop => some state.ended
  | .change feeds lists => some { state with feeds, lists }
  | .discover documents =>
    (discoverNamespacedResources documents).map fun resources => { state.ended with resources }

end

section

variable (state : State)

/-- What is listed after Pods were found has no objects. -/
def quiet (pass : Pass) : Bool :=
  match pass.stage with
  | .list (index :: _) _ => isPods state.resources index || decide (state.podsSeen = some 0) ||
      (state.lists index).all List.isEmpty
  | _ => true

/-- Pods are among what was discovered, once. -/
def Orderly : Action → Prop
  | .start _ => state.resources.count podsResource = 1
  | .next _ => state.pass.all (quiet state) = true
  | _ => True

instance (action : Action) : Decidable (Orderly state action) :=
  match action with
  | .start _ => inferInstanceAs (Decidable (_ = 1))
  | .next _ => inferInstanceAs (Decidable (_ = true))
  | .stop | .change _ _ | .discover _ => inferInstanceAs (Decidable True)

end

/-- Every resource is listed yet or still to be, and nothing was found where nothing remains. -/
def Accounted (state : State) (todo : List Nat) (remaining : Nat) : Prop :=
  ∀ index, index < state.resources.length → index ∈ todo ∨
    (remaining = 0 → (index, 0) ∈ state.listed)

def Confirmed (state : State) : Stage → Prop
  | .list todo remaining | .sweep _ _ todo remaining => Accounted state todo remaining
  | .finalize => ∀ index, index < state.resources.length → (index, 0) ∈ state.listed
  | .feed _ _ | .purge _ _ _ _ _ => True

def NoPods (state : State) : Prop := state.podsSeen = some 0

def PodsFirst (state : State) : Stage → Prop
  | .feed todo _ => (∃ index rest, todo = index :: rest ∧ podsIndex state.resources = some index ∧
        ∀ other ∈ rest, isPods state.resources other = false) ∨
      NoPods state ∧ ∀ other ∈ todo, isPods state.resources other = false
  | .purge index _ todo _ podsLeft => (∀ other ∈ todo, isPods state.resources other = false) ∧
      (NoPods state ∨ podsLeft = true ∧ isPods state.resources index = true)
  | .sweep index items _ _ => items = [] ∨ isPods state.resources index = true ∨ NoPods state
  | .list _ _ | .finalize => True

/-- The pass that is under way, if there is one, is at a stage where this holds. -/
def Along (holds : State → Stage → Prop) (state : State) : Prop :=
  ∀ pass ∈ state.pass, holds state pass.stage

variable {state after : State} {pass : Pass} {action : Action} {served : Bool} {index left : Nat}
  {stage : Stage}
  {todo : List Nat} {remaining : Nat} {items : List Value} {resources : List Resource}

theorem isPods_of_podsIndex (found : podsIndex resources = some index) :
    isPods resources index = true := by
  obtain ⟨bound, isPods, -⟩ := findIdx?_eq_some_iff_getElem.mp found
  have same : resources[index] = podsResource := of_decide_eq_true isPods
  exact decide_eq_true (by rw [getElem?_eq_getElem bound, same])

theorem podsIndex_of_count (once : resources.count podsResource = 1) :
    ∃ first, podsIndex resources = some first ∧
      ∀ other, other ≠ first → isPods resources other = false := by
  have member : podsResource ∈ resources := count_pos_iff.mp (by omega)
  obtain ⟨first, isFirst⟩ : ∃ first, podsIndex resources = some first := by
    refine Option.isSome_iff_exists.mp ?_
    rw [podsIndex, findIdx?_isSome, any_eq_true]
    exact ⟨_, member, decide_eq_true rfl⟩
  refine ⟨first, isFirst, fun other different => Bool.eq_false_iff.mpr fun isOther => ?_⟩
  have ⟨bound, isHere⟩ :=
    List.getElem?_eq_some_iff.mp (of_decide_eq_true (isPods_of_podsIndex isFirst))
  have ⟨limit, isThere⟩ := List.getElem?_eq_some_iff.mp (of_decide_eq_true isOther)
  have twice : Duplicate podsResource resources := by
    rw [duplicate_iff_exists_distinct_get]
    rcases Nat.lt_or_gt_of_ne different with before | behind
    · exact ⟨⟨other, limit⟩, ⟨first, bound⟩, before, isThere.symm, isHere.symm⟩
    · exact ⟨⟨first, bound⟩, ⟨other, limit⟩, behind, isHere.symm, isThere.symm⟩
  have many : [podsResource, podsResource].count podsResource ≤ resources.count podsResource :=
    (duplicate_iff_sublist.mp twice).count_le podsResource
  have two : [podsResource, podsResource].count podsResource = 2 := by decide
  omega

@[simp] theorem reads_resources (count : Nat) :
    (state.reads index count).resources = state.resources := by
  unfold State.reads
  split_ifs <;> rfl

theorem reads_other (other : isPods state.resources index = false) (count : Nat) :
    state.reads index count = state := by
  rw [State.reads, other]
  rfl

/-- What depends on what was discovered, seen and listed only. -/
class Observes (holds : State → Stage → Prop) : Prop where
  congr {state after : State} {stage : Stage} :
    holds state stage → after.resources = state.resources →
    after.podsSeen = state.podsSeen → after.listed = state.listed → holds after stage

instance : Observes Confirmed where
  congr {_ _ stage} held resources _ listed := by
    cases stage <;> first | trivial | simpa only [Confirmed, Accounted, resources,
      listed] using held

instance : Observes PodsFirst where
  congr {_ _ stage} held resources seen _ := by
    cases stage <;> first | trivial | simpa only [PodsFirst, NoPods, resources, seen] using held

variable {holds : State → Stage → Prop}

theorem along_ended : Along holds state.ended := nofun

theorem along_enters [Observes holds] (held : holds state stage) :
    Along holds (state.enters pass stage) := by
  rintro other ⟨⟩
  exact Observes.congr held rfl rfl rfl

/-- What starts a pass and what one step of it keeps holds along every run. -/
theorem step_along [Observes holds] (inv : Along holds state)
    (taken : step state action = some after)
    (starts : ∀ ns, action = .start ns → ∀ begun : State, begun.resources = state.resources →
      holds begun (.feed (order state.resources) 0))
    (goes : ∀ served, action = .next served → ∀ pass ∈ state.pass, holds state pass.stage →
      Along holds (advance state pass served)) : Along holds after := by
  cases action with
  | start ns =>
    simp only [step] at taken
    split_ifs at taken
    · cases taken
      rintro pass ⟨⟩
      exact starts ns rfl _ rfl
    · cases taken
      exact inv
  | next served =>
    obtain ⟨pass, running, rfl⟩ := Option.map_eq_some_iff.mp taken
    exact goes served rfl pass running (inv pass running)
  | stop =>
    cases taken
    exact along_ended
  | change feeds lists =>
    cases taken
    exact fun pass running => Observes.congr (inv pass running) rfl rfl rfl
  | discover documents =>
    obtain ⟨resources, -, rfl⟩ := Option.map_eq_some_iff.mp taken
    exact nofun

theorem accounted_cons (held : Accounted state (index :: todo) remaining)
    (resources : after.resources = state.resources)
    (listed : after.listed = (index, items.length) :: state.listed) :
    Accounted after todo (remaining + items.length) := by
  intro other inside
  rw [listed]
  rcases held other (resources ▸ inside) with member | accounted
  · rcases mem_cons.mp member with rfl | member
    · refine .inr fun nothing => ?_
      have empty : items.length = 0 := by omega
      rw [empty]
      exact .head _
    · exact .inl member
  · exact .inr fun nothing => .tail _ (accounted (by omega))

theorem advance_confirmed (held : Confirmed state pass.stage) :
    Along Confirmed (advance state pass served) := by
  unfold advance
  split <;> rename_i isStage <;> rw [isStage] at held
  · split_ifs
    · exact along_enters fun index inside => .inl (mem_range.mpr inside)
    · exact along_ended
  · split
    · exact along_enters trivial
    · exact along_ended
  · split_ifs
    · exact along_ended
    · exact along_enters trivial
  · split_ifs
    · exact along_enters trivial
    · exact along_ended
  · split_ifs with nothing
    · refine along_enters fun index inside => ?_
      rcases held index inside with member | accounted
      · cases member
      · exact accounted nothing
    · exact along_ended
  · split
    · rintro other ⟨⟩
      exact accounted_cons held (reads_resources _) rfl
    · exact along_ended
  · exact along_enters held
  · exact along_enters held
  · exact along_ended

theorem podsFirst_order (once : state.resources.count podsResource = 1) (remaining : Nat) :
    PodsFirst state (.feed (order state.resources) remaining) := by
  have ⟨first, isFirst, others⟩ := podsIndex_of_count once
  refine .inl ⟨first, (range state.resources.length).filter (some · ≠ podsIndex state.resources),
    ?_, isFirst, fun other member => ?_⟩
  · rw [order, isFirst]
    rfl
  · refine others other fun same => ?_
    have different := of_decide_eq_true (mem_filter.mp member).2
    rw [same, isFirst] at different
    exact different rfl

theorem podsFirst_purge (held : PodsFirst state (.feed (index :: todo) remaining)) :
    PodsFirst (state.reads index items.length) (.purge index items todo left
      (some index = podsIndex state.resources && !items.isEmpty)) := by
  rcases held with ⟨first, rest, isTodo, isFirst, others⟩ | ⟨none, others⟩
  · cases isTodo
    have pods := isPods_of_podsIndex isFirst
    refine ⟨by simpa using others, ?_⟩
    cases items with
    | nil => exact .inl (by rw [NoPods, State.reads, if_pos pods]; rfl)
    | cons item items => exact .inr ⟨by simp [isFirst], by simpa using pods⟩
  · have other := others index mem_cons_self
    rw [reads_other other]
    exact ⟨fun next member => others next (.tail _ member), .inl none⟩

theorem podsFirst_sweep (calm : isPods state.resources index = true ∨ NoPods state ∨ items = []) :
    PodsFirst (state.reads index items.length) (.sweep index items todo left) := by
  by_cases pods : isPods state.resources index = true
  · exact .inr (.inl (by simpa using pods))
  · rcases calm with isPods | none | empty
    · exact absurd isPods pods
    · rw [reads_other (Bool.eq_false_iff.mpr pods)]
      exact .inr (.inr none)
    · exact .inl empty

theorem advance_podsFirst (held : PodsFirst state pass.stage) (orderly : quiet state pass = true) :
    Along PodsFirst (advance state pass served) := by
  unfold advance
  split <;> (rename_i isStage; rw [isStage] at held)
  · split_ifs
    · exact along_enters trivial
    · exact along_ended
  · split
    · exact along_enters (podsFirst_purge held)
    · exact along_ended
  · split_ifs with left
    · exact along_ended
    · exact along_enters (.inr ⟨held.2.resolve_right fun pods => left pods.1, held.1⟩)
  · split_ifs
    · exact along_enters held
    · exact along_ended
  · split_ifs
    · exact along_enters trivial
    · exact along_ended
  · rename_i index todo remaining
    split
    · next items isItems =>
      have calm : isPods state.resources index = true ∨ NoPods state ∨ items = [] := by
        simpa [quiet, isStage, isItems, NoPods, or_assoc] using orderly
      have swept : PodsFirst (state.reads index items.length) (.sweep index items todo 0) :=
        podsFirst_sweep calm
      rintro other ⟨⟩
      exact swept
    · exact along_ended
  · exact along_enters trivial
  · exact along_enters (.inr (held.resolve_left nofun))
  · exact along_ended

/-- Controllers that have not begun. -/
def fresh (feeds lists : Nat → Option (List Value)) : State := ⟨[], feeds, lists, none, none, []⟩

theorem contents_go_in_order {feeds lists : Nat → Option (List Value)} {state : State}
    (reached : Transition.Reaches step (fun _ _ => True) (fresh feeds lists) state) {pass : Pass}
    (running : state.pass = some pass) :
    (Transition.Reaches step Orderly (fresh feeds lists) state →
      ∀ index path item, request state pass = some (.delete index path item) →
        isPods state.resources index = true ∨ state.podsSeen = some 0) ∧
    ∀ path body, request state pass = some (.finalize path body) →
      ∀ index, index < state.resources.length → (index, 0) ∈ state.listed := by
  unfold request
  refine ⟨fun reached index path item sends => ?_, fun path body sends => ?_⟩
  · have inv : Along PodsFirst state :=
        reached.invariant nofun fun state action _ inv orderly taken =>
      step_along inv taken (fun ns isStart begun same => by
          subst isStart
          rw [← same]
          exact podsFirst_order (by rw [same]; exact orderly) 0)
        (fun served isNext pass running held => by
          subst isNext
          exact advance_podsFirst held ((Option.all_eq_true _ _).mp orderly pass running))
    have held := inv pass running
    split at sends
    · next isStage =>
      rw [isStage] at held
      split_ifs at sends
      obtain ⟨rfl, -, -⟩ := Request.delete.inj (Option.some.inj sends)
      exact held.2.elim .inr fun pods => .inl pods.2
    · next isStage =>
      rw [isStage] at held
      split_ifs at sends
      obtain ⟨rfl, -, -⟩ := Request.delete.inj (Option.some.inj sends)
      exact held.resolve_left nofun
    · cases Option.some.inj sends
    · cases sends
  · have inv : Along Confirmed state := reached.invariant nofun fun _ _ _ inv _ taken =>
      step_along inv taken (fun _ _ _ _ => trivial) fun _ _ _ _ held => advance_confirmed held
    have held := inv pass running
    split at sends
    · split_ifs at sends
      cases Option.some.inj sends
    · split_ifs at sends
      cases Option.some.inj sends
    · next isStage =>
      rw [isStage] at held
      exact held
    · cases sends

/-- A discovery of Pods and Secrets. -/
def documents (path : String) : Option Value :=
  let served (name : String) : Value := .object [("name", .string name), ("namespaced", .bool true),
    ("verbs", .array [.string "list", .string "delete"])]
  if path = "/api/v1" then some (.object [("resources", .array [served "pods", served "secrets"])])
  else some (.object [("groups", .array [])])

def object (name : String) : Value := .object [("metadata", .object [("name", .string name)])]

def namespaceOf (name : String) : Value :=
  .object [("metadata", .object [("name", .string name), ("deletionTimestamp", .string "0")])]

/-- The namespace has Pods and Secrets of these names, in the feeds or in the lists. -/
def has (pods secrets : List String) : Nat → Option (List Value)
  | 0 => some (pods.map object)
  | 1 => some (secrets.map object)
  | _ => none

def sending (state : State) : Option Request := state.pass.bind (request state)

def deletesOther (state : State) : Bool :=
  (sending state).any fun
    | .delete index _ _ => !isPods state.resources index
    | .finalize _ _ => false

def finalizes (state : State) : Bool :=
  (sending state).any fun
    | .delete _ _ _ => false
    | .finalize _ _ => true

/-- The Pods are gone and a Secret is left; or nothing is left. -/
theorem contents_go_in_order_secret :
    (∃ state, Transition.Reaches step Orderly (fresh (has [] ["s"]) (has [] ["s"])) state ∧
      deletesOther state = true ∧ state.podsSeen = some 0) ∧
    ∃ state, Transition.Reaches step (fun _ _ => True) (fresh (has [] []) (has [] [])) state ∧
      finalizes state = true ∧ ∀ index, index < state.resources.length →
          (index, 0) ∈ state.listed := by
  constructor
  · refine exists_reaches_of
      [.discover documents, .start (namespaceOf "n"), .next true, .next true, .next true]
        deletesOther
      (by decide +kernel) fun state reached deletes => ⟨deletes, ?_⟩
    have ⟨sent, isSent, other⟩ := (Option.any_eq_true _ _).mp deletes
    have ⟨pass, running, sends⟩ := Option.bind_eq_some_iff.mp isSent
    cases sent with
    | delete index path item =>
      have order := (contents_go_in_order (reached.mono fun _ _ _ => trivial) running).1 reached
      have notPods : isPods state.resources index = false := Bool.not_eq_true' _ |>.mp other
      exact (order index path item sends).resolve_left (by rw [notPods]; nofun)
    | finalize path body => cases other
  · refine exists_reaches_of
      ([.discover documents, .start (namespaceOf "n")] ++ List.replicate 10 (.next true)) finalizes
      (by decide +kernel) fun last ends clears => ⟨clears, ?_⟩
    have ⟨sent, isSent, other⟩ := (Option.any_eq_true _ _).mp clears
    have ⟨pass, running, sends⟩ := Option.bind_eq_some_iff.mp isSent
    cases sent with
    | delete index path item => cases other
    | finalize path body => exact (contents_go_in_order ends running).2 path body sends

/-- The feeds say that the namespace is empty, and a Pod and a Secret are made before that is
confirmed. -/
theorem contents_out_of_order :
    ∃ state, Transition.Reaches step (fun _ _ => True) (fresh (has [] []) (has [] [])) state ∧
      (deletesOther state && decide (state.podsSeen = some 1)) = true :=
  exists_reaches ([.discover documents, .start (namespaceOf "n")] ++
    List.replicate 5 (.next true) ++ [.change (has [] []) (has ["p"] ["s"])] ++
    List.replicate 4 (.next true)) (by decide +kernel)

end Rustkube.NamespaceTermination
