import Rustkube.LabelSelectors

namespace Rustkube.Disruption

open List Option Transition Json

/-- The pods of a namespace under their names, in the order in which the store lists them. -/
structure Pods where
  listed : List (String × Value)
  distinct : (listed.map Prod.fst).Nodup

namespace Pods

variable (pods : Pods)

def get? (name : String) : Option Value := pods.listed.lookup name

def remove (name : String) : Pods where
  listed := pods.listed.filter (·.1 != name)
  distinct := pods.distinct.sublist (List.filter_sublist.map Prod.fst)

/-- What `disruptions_allowed` lists: one page. -/
def page : List Value := (pods.listed.take 5000).map Prod.snd

end Pods

/-- A budget that let a request pass, with the pods that were listed for it. -/
structure Check where
  pdb : Value
  listing : List Value

/-- `create_eviction` between its read of the pod and its delete. -/
structure Call where
  name : String
  pod : Value
  passed : List Check
  waiting : List Value

structure State where
  pods : Pods
  calls : List Call

/-- A request reads its pod; looks at the next budget; or, past all of them, deletes the pod. One
that the webhooks refuse takes no further step. -/
inductive Action where
  | arrive (name : String)
  | check (index : Nat)
  | delete (index : Nat)

section

/- Where a text stands for a number of pods, `count` says for which. -/
variable (count : (text : String) → (total : Int) → Option Int) (pdbs : List Value)

/-- The handler's view of the namespace, with the pods that it listed. -/
def handler (pods : List Value) : Eviction := ⟨.null, pdbs, pods, count⟩

/-- One turn of the loop over the budgets. A budget without room is a 429. -/
def check (state : State) (index : Nat) (call : Call) (pdb : Value) (waiting : List Value) :
    State :=
  if selectorMatches pdb["spec"]["selector"] call.pod["metadata"]["labels"] then
    if (handler count pdbs state.pods.page).disruptionsAllowed pdb ≤ 0 then
      { state with calls := state.calls.eraseIdx index }
    else { state with
      calls := state.calls.set index
        { call with passed := call.passed ++ [⟨pdb, state.pods.page⟩], waiting } }
  else { state with calls := state.calls.set index { call with waiting } }

/-- The budgets are listed up to the first thousand, and the pod is removed whatever has become of
the counts. -/
def step (state : State) : Action → Option State
  | .arrive name => do
    let pod ← state.pods.get? name
    some { state with calls := state.calls ++ [⟨name, pod, [], pdbs.take 1000⟩] }
  | .check index => do
    let call ← state.calls[index]?
    match call.waiting with
    | pdb :: waiting => some (check count pdbs state index call pdb waiting)
    | [] => none
  | .delete index => do
    let call ← state.calls[index]?
    if call.waiting = [] then
      some ⟨state.pods.remove call.name, state.calls.eraseIdx index⟩
    else none

/-- Whether a budget is about a pod, by the API's meaning of its selector. -/
def selects (pdb pod : Value) : Bool :=
  Selector.matchesLabels pdb["spec"]["selector"] pod["metadata"]["labels"]

def total (pdb : Value) (pods : Pods) : Int :=
  (pods.listed.countP fun entry => selects pdb entry.2 : Nat)

def healthy (pdb : Value) (pods : Pods) : Int :=
  (pods.listed.countP fun entry => selects pdb entry.2 && isReady entry.2 : Nat)

def desired (pdb : Value) (total : Int) : Int := (handler count pdbs []).desiredHealthy pdb total

/-- The evictions since the start have left a budget what it is for. -/
structure Respected (pdb : Value) (start now : Pods) : Prop where
  minAvailable : ∀ least, (handler count pdbs []).intstrToCount pdb["spec"]["minAvailable"]
      (total pdb start) = some least →
    min least (healthy pdb start) ≤ healthy pdb now
  maxUnavailable : (handler count pdbs []).intstrToCount pdb["spec"]["minAvailable"]
      (total pdb start) = none →
    ∀ most, (handler count pdbs []).intstrToCount pdb["spec"]["maxUnavailable"]
        (total pdb start) = some most →
      total pdb now = total pdb start ∨ total pdb start - total pdb now ≤ most

/-- What a check counted is there when the pod goes, it asked for no less than the pods of the start
do, and its numbers are what an i64 holds. -/
def Check.sound (check : Check) (start now : Pods) : Bool :=
  let eviction := handler count pdbs check.listing
  let counted : Int := (eviction.matched check.pdb).countP isReady
  let asked := eviction.desiredHealthy check.pdb (eviction.matched check.pdb).length
  counted ≤ healthy check.pdb now &&
    desired count pdbs check.pdb (total check.pdb start) ≤ asked &&
    eviction.disruptionsAllowed check.pdb == counted - asked

/-- A pod is deleted after a sound check of every budget that selects it. -/
def guarded (start : Pods) (state : State) : Action → Bool
  | .delete index =>
    (state.calls[index]?).all fun call => pdbs.all fun pdb =>
      !selects pdb call.pod ||
        call.passed.any fun check => check.pdb == pdb && check.sound count pdbs start state.pods
  | _ => true

end

variable {pods : Pods} {name : String}

theorem countP_remove_ge (holds : String × Value → Bool) (pods : Pods) (name : String) :
    pods.listed.countP holds ≤ (pods.remove name).listed.countP holds + 1 := by
  have ⟨listed, distinct⟩ := pods
  change listed.countP holds ≤ (listed.filter (·.1 != name)).countP holds + 1
  induction listed with
  | nil => simp
  | cons entry rest ih =>
    rw [map_cons, nodup_cons] at distinct
    by_cases same : entry.1 = name
    · -- No other pod has the name.
      have others : rest.filter (·.1 != name) = rest := by
        refine filter_eq_self.mpr fun other member => ?_
        have : other.1 ≠ entry.1 := fun equal =>
          distinct.1 (equal ▸ mem_map_of_mem member)
        simpa [same] using this
      rw [filter_cons_of_neg (by simp [same]), others, countP_cons]
      split_ifs <;> omega
    · rw [filter_cons_of_pos (by simpa using same), countP_cons, countP_cons]
      have := ih distinct.2
      omega

theorem countP_remove_eq {holds : String × Value → Bool}
    (apart : ∀ pod, (name, pod) ∈ pods.listed → holds (name, pod) = false) :
    (pods.remove name).listed.countP holds = pods.listed.countP holds := by
  change (pods.listed.filter (·.1 != name)).countP holds = _
  rw [countP_filter]
  refine countP_congr fun entry member => ?_
  have ⟨other, pod⟩ := entry
  by_cases same : other = name
  · subst same
    simp [apart pod member]
  · simp [same]

theorem healthy_le_total (pdb : Value) (pods : Pods) : healthy pdb pods ≤ total pdb pods := by
  refine Int.ofNat_le.mpr (countP_mono_left fun entry _ both => ?_)
  exact (Bool.and_eq_true_iff.mp both).1

section

variable {count : (text : String) → (total : Int) → Option Int} {pdbs : List Value}
  {start now : Pods} {state after : State} {pdb : Value}

/-- The pods that are left are of the start, and so is what a request has read; the budgets that let
it pass had room in what was listed for them. -/
structure Sound (count : (text : String) → (total : Int) → Option Int) (pdbs : List Value)
    (start : Pods) (state : State) : Prop where
  left : ∀ entry ∈ state.pods.listed, entry ∈ start.listed
  read : ∀ call ∈ state.calls, (call.name, call.pod) ∈ start.listed
  passed : ∀ call ∈ state.calls, ∀ check ∈ call.passed,
    0 < (handler count pdbs check.listing).disruptionsAllowed check.pdb

section

variable (sound : Sound count pdbs start state)

include sound

theorem Sound.calls {calls : List Call} (call : Call)
    (known : ∀ other ∈ calls, other ∈ state.calls ∨ other = call)
    (read : (call.name, call.pod) ∈ start.listed) (passed : ∀ check ∈ call.passed,
      0 < (handler count pdbs check.listing).disruptionsAllowed check.pdb) :
    Sound count pdbs start { state with calls } := by
  refine ⟨sound.left, fun other member => ?_, fun other member => ?_⟩
  · rcases known other member with old | rfl
    · exact sound.read other old
    · exact read
  · rcases known other member with old | rfl
    · exact sound.passed other old
    · exact passed

theorem Sound.erase (index : Nat) :
    Sound count pdbs start { state with calls := state.calls.eraseIdx index } :=
  ⟨sound.left, fun call member => sound.read call (mem_of_mem_eraseIdx member),
    fun call member => sound.passed call (mem_of_mem_eraseIdx member)⟩

theorem Sound.remove (name : String) :
    Sound count pdbs start { state with pods := state.pods.remove name } :=
  ⟨fun entry member => sound.left entry (mem_filter.mp member).1, sound.read, sound.passed⟩

theorem check_sound {index : Nat} {call : Call} {waiting : List Value}
    (called : call ∈ state.calls) :
    Sound count pdbs start (check count pdbs state index call pdb waiting) := by
  unfold check
  split_ifs with covered full
  · exact sound.erase index
  · exact sound.calls _ (fun _ => mem_or_eq_of_mem_set) (sound.read call called)
      (forall_mem_concat (sound.passed call called) (not_le.mp full))
  · exact sound.calls _ (fun _ => mem_or_eq_of_mem_set) (sound.read call called)
      (sound.passed call called)

theorem step_sound {action : Action} (taken : step count pdbs state action = some after) :
    Sound count pdbs start after := by
  cases action with
  | arrive name =>
    have ⟨pod, found, done⟩ := bind_eq_some_iff.mp taken
    cases done
    refine sound.calls ⟨name, pod, [], pdbs.take 1000⟩ ?_ ?_ (by simp)
    · intro other member
      exact (mem_append.mp member).imp_right mem_singleton.mp
    · exact sound.left _ (Json.Fields.mem_of_get? found)
  | check index =>
    have ⟨call, called, done⟩ := bind_eq_some_iff.mp taken
    split at done
    · cases done
      exact check_sound sound (mem_of_getElem? called)
    · cases done
  | delete index =>
    have ⟨call, called, done⟩ := bind_eq_some_iff.mp taken
    split_ifs at done
    cases done
    exact (sound.remove call.name).erase index

end

theorem step_pods {action : Action} (taken : step count pdbs state action = some after) :
    after.pods = state.pods ∨ ∃ index call, action = .delete index ∧
      state.calls[index]? = some call ∧ after.pods = state.pods.remove call.name := by
  cases action with
  | arrive name =>
    obtain ⟨pod, -, done⟩ := bind_eq_some_iff.mp taken
    cases done
    exact .inl rfl
  | check index =>
    obtain ⟨call, -, done⟩ := bind_eq_some_iff.mp taken
    split at done
    · cases done
      unfold check
      split_ifs <;> exact .inl rfl
    · cases done
  | delete index =>
    have ⟨call, called, done⟩ := bind_eq_some_iff.mp taken
    split_ifs at done
    cases done
    exact .inr ⟨index, call, rfl, called, rfl⟩

/-- The healthy pods of a budget are still as many as it asks for, or as there were; and once one of
its pods is gone there are as many as it asks for. -/
structure Kept (count : (text : String) → (total : Int) → Option Int) (pdbs : List Value)
    (pdb : Value) (start now : Pods) : Prop where
  floor : min (desired count pdbs pdb (total pdb start)) (healthy pdb start) ≤ healthy pdb now
  room : total pdb now = total pdb start ∨
    desired count pdbs pdb (total pdb start) ≤ total pdb now

theorem Kept.remove (kept : Kept count pdbs pdb start now) (pod : Value)
    (isPod : ∀ other, (name, other) ∈ now.listed → other = pod)
    (room : selects pdb pod = true → desired count pdbs pdb (total pdb start) < healthy pdb now) :
    Kept count pdbs pdb start (now.remove name) := by
  by_cases selected : selects pdb pod = true
  · have spare := room selected
    have fewer : healthy pdb now ≤ healthy pdb (now.remove name) + 1 := by
      have counted :=
        countP_remove_ge (fun entry => selects pdb entry.2 && isReady entry.2) now name
      unfold healthy
      omega
    have bound := healthy_le_total pdb (now.remove name)
    constructor
    · omega
    · exact .inr (by omega)
  · have apart : ∀ other, (name, other) ∈ now.listed → selects pdb other = false := by
      intro other member
      rw [isPod other member]
      simpa using selected
    have sameTotal : total pdb (now.remove name) = total pdb now := by
      unfold total
      rw [countP_remove_eq apart]
    have sameHealthy : healthy pdb (now.remove name) = healthy pdb now := by
      unfold healthy
      rw [countP_remove_eq fun other member => by rw [apart other member]; rfl]
    exact ⟨sameHealthy ▸ kept.floor, sameTotal ▸ kept.room⟩

theorem Kept.respected (kept : Kept count pdbs pdb start now) :
    Respected count pdbs pdb start now := by
  constructor
  · intro least isLeast
    have floor := kept.floor
    rwa [desired, Eviction.desiredHealthy, isLeast] at floor
  · intro unset most isMost
    refine kept.room.imp_right fun room => ?_
    rw [desired, Eviction.desiredHealthy, unset, isMost] at room
    dsimp only at room
    omega

/-- However evictions interleave, while each deletes its pod after sound checks every budget keeps
its healthy pods and loses no more pods than it allows. -/
theorem evictions_respect_budgets (count : (text : String) → (total : Int) → Option Int)
    (pdbs : List Value) (start : Pods) (state : State)
    (reached : Transition.Reaches (step count pdbs)
      (fun state action => guarded count pdbs start state action = true) ⟨start, []⟩ state) :
    ∀ pdb ∈ pdbs, Respected count pdbs pdb start state.pods := by
  have both : Sound count pdbs start state ∧
      ∀ pdb ∈ pdbs, Kept count pdbs pdb start state.pods := by
    apply reached.invariant
    · exact ⟨⟨fun _ member => member, by simp, by simp⟩,
        fun pdb _ => ⟨Int.min_le_right _ _, .inl rfl⟩⟩
    · intro before action after inv safe taken
      have ⟨sound, kept⟩ := inv
      refine ⟨step_sound sound taken, fun pdb member => ?_⟩
      rcases step_pods taken with same | ⟨index, call, rfl, called, removed⟩
      · rw [same]
        exact kept pdb member
      · have isCall := mem_of_getElem? called
        rw [removed]
        apply (kept pdb member).remove call.pod
        · intro other present
          exact congrArg Prod.snd (inj_on_of_nodup_map start.distinct (sound.left _ present)
            (sound.read call isCall) rfl)
        · intro selected
          simp only [guarded, called, all_some, List.all_eq_true] at safe
          have checked := safe pdb member
          rw [selected, Bool.not_true, Bool.false_or, List.any_eq_true] at checked
          have ⟨made, isMade, fits⟩ := checked
          have ⟨isPdb, exactly⟩ := Bool.and_eq_true_iff.mp fits
          obtain rfl := beq_iff_eq.mp isPdb
          have passed := sound.passed call isCall made isMade
          simp only [Check.sound, Bool.and_eq_true, decide_eq_true_eq, beq_iff_eq] at exactly
          omega
  exact fun pdb member => (both.2 pdb member).respected

end

def webPod (name : String) : String × Value :=
  (name, .object [("metadata", .object [("labels", .object [("app", .string "web")])]),
    ("status", .object [("conditions", .array [.object [("status", .string "True"),
      ("type", .string "Ready")]])])])

def webPods : Pods := ⟨[webPod "a", webPod "b"], by decide⟩

/-- A budget on `app: web` with one bound. -/
def webBudget (bound : String) (number : Int) : Value :=
  .object [("spec", .object [(bound, .number number), ("selector", .object [
    ("matchLabels", .object [("app", .string "web")])])])]

def noText : (text : String) → (total : Int) → Option Int := fun _ _ => none

theorem evictions_respect_budgets_one : ∃ state,
    Transition.Reaches (step noText [webBudget "minAvailable" 1])
      (fun state action => guarded noText [webBudget "minAvailable" 1] webPods state action = true)
      ⟨webPods, []⟩ state ∧
    state.pods.listed = [webPod "b"] ∧
    Respected noText [webBudget "minAvailable" 1] (webBudget "minAvailable" 1) webPods
      state.pods := by
  refine Transition.exists_reaches_of [.arrive "a", .check 0, .delete 0]
    (fun state => decide (state.pods.listed = [webPod "b"]))
      (by decide) fun state reached left => ?_
  exact ⟨of_decide_eq_true left,
    evictions_respect_budgets noText _ webPods state reached _ (by simp)⟩

/-- Two requests, one after the other, take both pods of a budget that may miss one; and two that
overlap take both pods of one that asks for one. -/
theorem evictions_exceed_budgets :
    (∃ state, Transition.Reaches (step noText [webBudget "maxUnavailable" 1]) (fun _ _ => True)
        ⟨webPods, []⟩ state ∧ total (webBudget "maxUnavailable" 1) webPods = 2 ∧
      state.pods.listed = [] ∧ ¬ Respected noText [webBudget "maxUnavailable" 1]
        (webBudget "maxUnavailable" 1) webPods state.pods) ∧
    ∃ state, Transition.Reaches (step noText [webBudget "minAvailable" 1]) (fun _ _ => True)
        ⟨webPods, []⟩ state ∧ healthy (webBudget "minAvailable" 1) webPods = 2 ∧
      state.pods.listed = [] ∧ ¬ Respected noText [webBudget "minAvailable" 1]
        (webBudget "minAvailable" 1) webPods state.pods := by
  constructor
  · refine ⟨_, Reaches.start.run [.arrive "a", .check 0, .delete 0, .arrive "b",
      .check 0, .delete 0] rfl, by decide, rfl, fun respected => ?_⟩
    rcases respected.maxUnavailable (by decide) 1 (by decide) with same | few
    · exact absurd same (by decide)
    · exact absurd few (by decide)
  · refine ⟨_, Reaches.start.run [.arrive "a", .arrive "b", .check 0, .check 1,
      .delete 0, .delete 0] rfl, by decide, rfl, fun respected => ?_⟩
    exact absurd (respected.minAvailable 1 (by decide)) (by decide)

end Rustkube.Disruption
