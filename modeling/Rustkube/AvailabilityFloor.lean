import Rustkube.ReplicaSet

/- A Deployment's pass, and the Pods that serve once its ReplicaSets have run theirs. -/
namespace Rustkube.Rollout

open Bool List Option ReplicaSet Json Controllers Value

section

def revisionKey : String := "deployment.kubernetes.io/revision"

/-- Two settings of zero would never move: one Pod of surge is allowed then. -/
def strategy (deploy : Value) (desired : Nat) : Nat × Nat × Bool :=
  if deploy["spec"]["strategy"]["type"].asStr?.getD "RollingUpdate" = "Recreate" then
    (0, desired, true)
  else
    let settings := deploy["spec"]["strategy"]["rollingUpdate"]
    let orQuarter (value : Value) : Value := if value.isNull then .string "25%" else value
    let surge := intOrPercent (orQuarter settings["maxSurge"]) desired true
    let unavailable := intOrPercent (orQuarter settings["maxUnavailable"]) desired false
    if surge = 0 ∧ unavailable = 0 then (1, 0, false) else (surge, unavailable, false)

def viewOf (rs : Value) : RsView where
  name := nameOf rs
  revision := (rs["metadata"]["annotations"][revisionKey].asStr?.bind parseU64Text).getD 0
  specReplicas := (count? rs["spec"]["replicas"]).getD 0
  available := (count? rs["status"]["availableReplicas"]).getD 0

def highestRevision (sets : List RsView) : Nat := (sets.map RsView.revision).foldl max 0

def nextRevision (sets : List RsView) : Nat := word (highestRevision sets + 1)

-- `hash` is the template's: the suffix of the name of the ReplicaSet that runs it.
variable (hash : Value → String) (deploy : Value) (sets : List Value)

def currentName : String := nameOf deploy ++ "-" ++ hash deploy["spec"]["template"]

/-- The Deployment's ReplicaSets among those that were listed. -/
def owned : List Value := sets.filter (ownedBy · (uidOf deploy))

def views : List RsView := (owned deploy sets).map viewOf

/-- A ReplicaSet that is not there yet is made with no replicas; one that was selected again gets
the next revision. -/
def newView : RsView :=
  let name := currentName hash deploy
  match (owned deploy sets).find? (·["metadata"]["name"].asStr? = some name) with
  | some rs =>
    let view := viewOf rs
    if view.revision < highestRevision (views deploy sets) then
      { view with revision := nextRevision (views deploy sets) }
    else view
  | none => ⟨name, nextRevision (views deploy sets), 0, 0⟩

def olds : List RsView := (views deploy sets).filter (·.name ≠ currentName hash deploy)

def desiredReplicas : Nat := (count? deploy["spec"]["replicas"]).getD 1

def maxUnavailable : Nat := (strategy deploy (desiredReplicas deploy)).2.1

def planOf : Plan :=
  let desired := desiredReplicas deploy
  let (surge, unavailable, recreate) := strategy deploy desired
  if recreate then planRecreate desired (olds hash deploy sets)
  else planRolling desired surge unavailable (newView hash deploy sets) (olds hash deploy sets)

/-- The count that is written to the ReplicaSet of a name, if one is. -/
def Plan.written (plan : Plan) (new : RsView) (name : String) : Option Nat :=
  if name = new.name then
    if plan.newReplicas ≠ new.specReplicas then some plan.newReplicas else none
  else plan.old.lookup name

/-- A `spec` that takes no field is not written. -/
def scale (replicas : Nat) (rs : Value) : Value :=
  if count? rs["spec"]["replicas"] = some replicas then rs
  else (rs.assignIn "spec" "replicas" (.number replicas)).getD rs

/-- The Deployment's ReplicaSets after its pass. -/
def reconcileDeployment : List Value :=
  let mine := owned deploy sets
  if deploy["metadata"]["name"].asStr?.isNone ∨ isDeleting deploy ∨
      deploy["spec"]["paused"].asBool?.getD false then mine
  else
    let plan := planOf hash deploy sets
    mine.map fun rs =>
      match plan.written (newView hash deploy sets) (nameOf rs) with
      | some replicas => scale replicas rs
      | none => rs

end

/-- The Pods of these ReplicaSets that serve. -/
def readyPods (sets pods : List Value) : List Value :=
  pods.filter fun pod => isPodReady pod && !hasEnded pod && !isDeleting pod &&
    sets.any fun rs => ownedBy pod (uidOf rs)

/-- The Pods that are left once every ReplicaSet has deleted what it runs too many of. -/
def afterPasses (sets pods : List Value) : List Value :=
  pods.filter fun pod => sets.all fun rs => decide (pod ∉ ReplicaSet.excess rs pods)

/-- A ReplicaSet whose status is that of its Pods, and which runs no more than it is told. -/
structure Steady (pods : List Value) (rs : Value) : Prop where
  counted : (viewOf rs).available = (active rs pods).countP isPodReady
  told : (viewOf rs).available ≤ (viewOf rs).specReplicas

/-- What the names, the owner references and the list of Pods are like in a cluster. -/
structure Listed (mine pods : List Value) : Prop where
  named : ∀ rs ∈ mine, rs["metadata"]["name"].asStr?.isSome
  names : (mine.map nameOf).Nodup
  distinct : pods.Nodup
  oneOwner : ∀ pod ∈ pods, (mine.countP fun rs => ownedBy pod (uidOf rs)) ≤ 1

section

variable {α β : Type} {owns : α → β → Bool} {counts : β → Bool} {sets : List α}

theorem sum_countP_cons (owns : α → β → Bool) (sets : List α) (pod : β) (pods : List β) :
    (sets.map fun rs => (pod :: pods).countP (owns rs)).sum =
      (sets.map fun rs => pods.countP (owns rs)).sum + sets.countP (owns · pod) := by
  induction sets with
  | nil => simp
  | cons rs rest ih =>
    rw [map_cons, sum_cons, ih, map_cons, sum_cons, countP_cons, countP_cons]
    omega

theorem eq_of_length_le_one {items : List α} (short : items.length ≤ 1) {left right : α}
    (here : left ∈ items) (there : right ∈ items) : left = right := by
  match items, short with
  | [only], _ => rw [mem_singleton.mp here, mem_singleton.mp there]

theorem countP_le_sum (pods : List β)
    (counted : ∀ pod ∈ pods, counts pod = true → ∃ rs ∈ sets, owns rs pod = true) :
    pods.countP counts ≤ (sets.map fun rs => pods.countP (owns rs)).sum := by
  induction pods with
  | nil => simp
  | cons pod rest ih =>
    have tail := ih fun other member => counted other (.tail _ member)
    rw [sum_countP_cons, countP_cons]
    split_ifs with counts
    · have ⟨rs, member, own⟩ := counted pod (.head _) counts
      have one : 0 < sets.countP (owns · pod) := countP_pos_iff.mpr ⟨rs, member, own⟩
      omega
    · omega

theorem sum_countP_le (pods : List β) (one : ∀ pod ∈ pods, sets.countP (owns · pod) ≤ 1)
    (counted : ∀ pod ∈ pods, ∀ rs ∈ sets, owns rs pod = true → counts pod = true) :
    (sets.map fun rs => pods.countP (owns rs)).sum ≤ pods.countP counts := by
  induction pods with
  | nil => simp
  | cons pod rest ih =>
    have tail := ih (fun other member => one other (.tail _ member))
      fun other member => counted other (.tail _ member)
    have single := one pod (.head _)
    rw [sum_countP_cons, countP_cons]
    split_ifs with counts
    · omega
    · have none : sets.countP (owns · pod) = 0 := countP_eq_zero.mpr fun rs member own =>
        counts (counted pod (.head _) rs member own)
      omega

end

section

variable {rs : Value} {pods : List Value}

theorem scale_metadata (replicas : Nat) (rs : Value) :
    (scale replicas rs)["metadata"] = rs["metadata"] := by
  unfold scale
  split_ifs
  · rfl
  · cases written : rs.assignIn "spec" "replicas" (.number replicas) with
    | none => rfl
    | some after => exact assignIn_of_ne written (by decide)

theorem replicas_of_assignIn_none {field : Value}
    (refused : rs.assignIn "spec" "replicas" field = none) : rs["spec"]["replicas"] = .null := by
  cases rs with
  | object fields =>
    cases found : (object fields)["spec"] with
    | object inner =>
      unfold assignIn at refused
      rw [found] at refused
      cases refused
    | null | _ => rfl
  | _ => rfl

theorem desired_scale {replicas : Nat} (small : replicas < 2 ^ 64) (rs : Value) :
    min (viewOf rs).specReplicas replicas ≤ desired (scale replicas rs) := by
  unfold scale desired
  split_ifs with same
  · rw [same, getD_some]
    omega
  · cases written : rs.assignIn "spec" "replicas" (.number replicas) with
    | none =>
      have idle : (viewOf rs).specReplicas = 0 := by
        change (count? rs["spec"]["replicas"]).getD 0 = 0
        rw [replicas_of_assignIn_none written]
        rfl
      omega
    | some after =>
      rw [getD_some, assignIn_self written, count?_number small, getD_some]
      omega

theorem specReplicas_le_desired (rs : Value) : (viewOf rs).specReplicas ≤ desired rs := by
  unfold desired
  change (count? rs["spec"]["replicas"]).getD 0 ≤ _
  cases count? rs["spec"]["replicas"] with
  | none => exact Nat.zero_le _
  | some replicas => exact le_rfl

theorem active_congr {after : Value} (same : after["metadata"] = rs["metadata"])
    (pods : List Value) : active after pods = active rs pods := by
  unfold active uidOf
  rw [same]

theorem specReplicas_lt (rs : Value) : (viewOf rs).specReplicas < 2 ^ 64 := by
  change (count? rs["spec"]["replicas"]).getD 0 < 2 ^ 64
  cases counted : count? rs["spec"]["replicas"] with
  | none => decide
  | some replicas => exact count?_lt counted

theorem desiredReplicas_lt (deploy : Value) : desiredReplicas deploy < 2 ^ 64 := by
  unfold desiredReplicas
  cases counted : count? deploy["spec"]["replicas"] with
  | none => decide
  | some replicas => exact count?_lt counted

end

section

variable {hash : Value → String} {deploy rs : Value} {sets pods : List Value}

theorem newView_name : (newView hash deploy sets).name = currentName hash deploy := by
  unfold newView
  dsimp only
  split
  · next rs found =>
    have named : rs["metadata"]["name"].asStr? = some (currentName hash deploy) := by
      simpa using find?_some found
    split_ifs <;> simp [viewOf, nameOf, textOf, named]
  · rfl

/-- The ReplicaSet of the current template is there at most once. -/
theorem current_views (listed : Listed (owned deploy sets) pods) :
    let new := newView hash deploy sets
    let current := (owned deploy sets).filter (nameOf · = currentName hash deploy)
    (current = [] ∧ new.available = 0 ∧ new.specReplicas = 0) ∨
      ∃ rs ∈ owned deploy sets, current = [rs] ∧ (viewOf rs).available = new.available ∧
        (viewOf rs).specReplicas = new.specReplicas := by
  intro new current
  cases found :
    (owned deploy sets).find? (·["metadata"]["name"].asStr? = some (currentName hash deploy)) with
  | none =>
    left
    have isNew : new = ⟨currentName hash deploy, nextRevision (views deploy sets), 0, 0⟩ := by
      simp only [new, newView, found]
    refine ⟨filter_eq_nil_iff.mpr fun rs member same => ?_, by rw [isNew], by rw [isNew]⟩
    have ⟨name, named⟩ := isSome_iff_exists.mp (listed.named rs member)
    have isCurrent : name = currentName hash deploy := by
      simpa [nameOf, textOf, named] using same
    exact find?_eq_none.mp found rs member (by simp [named, isCurrent])
  | some rs =>
    right
    have member : rs ∈ owned deploy sets := mem_of_find?_eq_some found
    have named : nameOf rs = currentName hash deploy := by
      have text : rs["metadata"]["name"].asStr? = some (currentName hash deploy) := by
        simpa using find?_some found
      simp [nameOf, textOf, text]
    refine ⟨rs, member, ?_, ?_, ?_⟩
    · have single : (current.map nameOf).Nodup := listed.names.sublist (filter_sublist.map _)
      have here : rs ∈ current := mem_filter.mpr ⟨member, by simp [named]⟩
      have alike : ∀ other ∈ current, nameOf other = currentName hash deploy := fun other kept => by
        simpa using (mem_filter.mp kept).2
      match current, here, alike, single with
      | [only], here, _, _ => rw [mem_singleton.mp here]
      | first :: second :: _, _, alike, single =>
        have same := (alike first (by simp)).trans (alike second (by simp)).symm
        simp [same] at single
    · simp only [new, newView, found]
      split_ifs <;> rfl
    · simp only [new, newView, found]
      split_ifs <;> rfl

theorem olds_eq :
    olds hash deploy sets =
      ((owned deploy sets).filter (nameOf · ≠ currentName hash deploy)).map viewOf := by
  unfold olds views
  rw [List.filter_map]
  rfl

theorem sum_owned (hash : Value → String) (count : Value → Nat) :
    ((owned deploy sets).map count).sum =
      (((owned deploy sets).filter (nameOf · = currentName hash deploy)).map count).sum +
        (((owned deploy sets).filter (nameOf · ≠ currentName hash deploy)).map count).sum := by
  induction owned deploy sets with
  | nil => rfl
  | cons rs rest ih =>
    rw [map_cons, sum_cons, ih, filter_cons, filter_cons]
    by_cases same : nameOf rs = currentName hash deploy
    · simp [same]
      omega
    · simp [same]
      omega

/-- What a ReplicaSet is told to run after the pass. -/
def target (hash : Value → String) (deploy : Value) (sets : List Value) (rs : Value) : Nat :=
  ((planOf hash deploy sets).written (newView hash deploy sets) (nameOf rs)).getD
    (viewOf rs).specReplicas

theorem sum_olds (count : RsView → Nat) :
    (((owned deploy sets).filter (nameOf · ≠ currentName hash deploy)).map fun rs =>
      count (viewOf rs)).sum = ((olds hash deploy sets).map count).sum := by
  rw [olds_eq, List.map_map]
  rfl

theorem sum_targets_old :
    (((owned deploy sets).filter (nameOf · ≠ currentName hash deploy)).map fun rs =>
      min (viewOf rs).available (target hash deploy sets rs)).sum =
      ((olds hash deploy sets).map fun old =>
        min old.available ((planOf hash deploy sets).oldReplicas old)).sum := by
  rw [← sum_olds]
  congr 1
  refine map_congr_left fun rs member => ?_
  have other : nameOf rs ≠ currentName hash deploy := by simpa using (mem_filter.mp member).2
  rw [target, Plan.written, if_neg fun same => other (same.trans newView_name)]
  rfl

section

variable (listed : Listed (owned deploy sets) pods)
  (told : ∀ rs ∈ owned deploy sets, (viewOf rs).available ≤ (viewOf rs).specReplicas)

include listed told

theorem planOf_floor (hash : Value → String)
    (rolling : (strategy deploy (desiredReplicas deploy)).2.2 = false)
    (newTold : (newView hash deploy sets).available ≤ (newView hash deploy sets).specReplicas) :
    min ((newView hash deploy sets).available + totalAvailable (olds hash deploy sets))
        (desiredReplicas deploy - maxUnavailable deploy) ≤
      min (newView hash deploy sets).available (planOf hash deploy sets).newReplicas +
        ((olds hash deploy sets).map fun old =>
          min old.available ((planOf hash deploy sets).oldReplicas old)).sum := by
  unfold planOf
  dsimp only
  rw [if_neg (by simp [rolling])]
  refine planRolling_floor newTold (fun old member => ?_) ?_
  · rw [olds_eq] at member
    obtain ⟨rs, kept, rfl⟩ := List.mem_map.mp member
    exact told rs (mem_filter.mp kept).1
  · rw [olds_eq, List.map_map]
    exact listed.names.sublist (filter_sublist.map _)

theorem targets_floor (hash : Value → String) :
    min ((owned deploy sets).map fun rs => (viewOf rs).available).sum
        (desiredReplicas deploy - maxUnavailable deploy) ≤
      ((owned deploy sets).map fun rs => min (viewOf rs).available
          (target hash deploy sets rs)).sum := by
  cases rolling : (strategy deploy (desiredReplicas deploy)).2.2 with
  | true =>
    have all : maxUnavailable deploy = desiredReplicas deploy := by
      unfold maxUnavailable
      unfold strategy at rolling ⊢
      dsimp only at rolling ⊢
      split_ifs at rolling ⊢
      rfl
    rw [all, Nat.sub_self, Nat.min_zero]
    exact Nat.zero_le _
  | false =>
    rw [sum_owned hash, sum_owned hash, sum_targets_old, sum_olds RsView.available]
    rcases @current_views hash _ _ _ listed with ⟨absent, unavailable, idle⟩ | ⟨rs, member, only,
      available, replicas⟩
    · have floor := planOf_floor listed told hash rolling (by omega)
      rw [unavailable] at floor
      rw [absent]
      simpa [totalAvailable] using floor
    · have newTold :
          (newView hash deploy sets).available ≤ (newView hash deploy sets).specReplicas := by
        rw [← available, ← replicas]
        exact told rs member
      have named : nameOf rs = currentName hash deploy := by
        have kept : rs ∈ (owned deploy sets).filter (nameOf · = currentName hash deploy) :=
          only ▸ mem_singleton_self rs
        simpa using (mem_filter.mp kept).2
      have floor := planOf_floor listed told hash rolling newTold
      have current : target hash deploy sets rs = (planOf hash deploy sets).newReplicas := by
        unfold target Plan.written
        rw [if_pos (named.trans newView_name.symm)]
        split_ifs with changed
        · rfl
        · exact replicas.trans (not_not.mp changed).symm
      rw [only, map_singleton, sum_singleton, map_singleton, sum_singleton, current, available]
      exact floor

end

theorem planOf_below (hash : Value → String) (deploy : Value) (sets : List Value) :
    (planOf hash deploy sets).Below (2 ^ 64) := by
  have newSmall : (newView hash deploy sets).specReplicas < 2 ^ 64 := by
    unfold newView
    dsimp only
    split
    · split_ifs <;> exact specReplicas_lt _
    · exact Nat.two_pow_pos 64
  unfold planOf
  dsimp only
  split_ifs
  · exact planRecreate_below (desiredReplicas_lt deploy)
  · refine planRolling_below (desiredReplicas_lt deploy) newSmall fun old member => ?_
    rw [olds_eq] at member
    obtain ⟨rs, -, rfl⟩ := List.mem_map.mp member
    exact specReplicas_lt rs

theorem written_lt {name : String} {replicas : Nat}
    (written : (planOf hash deploy sets).written (newView hash deploy sets) name = some replicas) :
    replicas < 2 ^ 64 := by
  have below := planOf_below hash deploy sets
  unfold Plan.written at written
  split_ifs at written
  · exact some.inj written ▸ below.new
  · obtain ⟨before, after, entries, -⟩ := lookup_eq_some_iff.mp written
    exact below.old (name, replicas) (entries ▸ mem_append_right _ (.head _))

/-- What a Deployment's pass does to one ReplicaSet. -/
theorem reconcileDeployment_spec (listed : Listed (owned deploy sets) pods)
    (told : ∀ rs ∈ owned deploy sets, (viewOf rs).available ≤ (viewOf rs).specReplicas) :
    ∃ step : Value → Value, reconcileDeployment hash deploy sets = (owned deploy sets).map step ∧
      (∀ rs, (step rs)["metadata"] = rs["metadata"]) ∧
      min ((owned deploy sets).map fun rs => (viewOf rs).available).sum
          (desiredReplicas deploy - maxUnavailable deploy) ≤
        ((owned deploy sets).map fun rs =>
          min (viewOf rs).available (desired (step rs))).sum := by
  unfold reconcileDeployment
  split_ifs with idle
  · refine ⟨id, (map_id _).symm, fun _ => rfl, le_trans (min_le_left ..) ?_⟩
    refine sum_le_sum fun rs member => le_min le_rfl ?_
    exact (told rs member).trans (specReplicas_le_desired rs)
  · refine ⟨_, rfl, fun rs => ?_, (targets_floor listed told hash).trans ?_⟩
    · split
      · exact scale_metadata ..
      · rfl
    · refine sum_le_sum fun rs member => ?_
      have bounded := told rs member
      unfold target
      split
      · next replicas written =>
        have runs := desired_scale (written_lt written) rs
        rw [written, getD_some]
        omega
      · next unwritten =>
        have runs := specReplicas_le_desired rs
        omega

end

variable {mine pods : List Value} {step : Value → Value}

theorem length_readyPods (sets pods : List Value) :
    (readyPods sets pods).length = pods.countP fun pod => isPodReady pod && !hasEnded pod &&
      !isDeleting pod && sets.any fun rs => ownedBy pod (uidOf rs) := by
  unfold readyPods
  rw [countP_eq_length_filter]

theorem countP_active (counts : Value → Bool) (rs : Value) (pods : List Value) :
    (active rs pods).countP counts = pods.countP fun pod =>
      counts pod && (!hasEnded pod && !isDeleting pod) && ownedBy pod (uidOf rs) := by
  unfold active
  rw [countP_filter, countP_filter]

theorem readyPods_le (mine pods : List Value) :
    (readyPods mine pods).length ≤ (mine.map fun rs => (active rs pods).countP isPodReady).sum := by
  rw [length_readyPods]
  simp only [countP_active]
  refine countP_le_sum pods fun pod _ counts => ?_
  simp only [and_eq_true, List.any_eq_true] at counts ⊢
  have ⟨⟨⟨ready, running⟩, alive⟩, rs, member, own⟩ := counts
  exact ⟨rs, member, ⟨ready, running, alive⟩, own⟩

theorem le_readyPods_afterPasses (listed : Listed mine pods)
    (same : ∀ rs, (step rs)["metadata"] = rs["metadata"]) :
    (mine.map fun rs => (active rs pods).countP fun pod =>
      isPodReady pod && decide (pod ∉ excess (step rs) pods)).sum ≤
      (readyPods (mine.map step) (afterPasses (mine.map step) pods)).length := by
  rw [length_readyPods, afterPasses, countP_filter]
  simp only [countP_active]
  have ownedSame : ∀ rs pod, ownedBy pod (uidOf (step rs)) = ownedBy pod (uidOf rs) :=
      fun rs pod => by
    unfold uidOf
    rw [same]
  refine sum_countP_le pods (fun pod member => ?_) fun pod member rs found counts => ?_
  · refine le_trans (countP_mono_left fun rs _ counts => ?_) (listed.oneOwner pod member)
    exact (and_eq_true_iff.mp counts).2
  · simp only [and_eq_true, decide_eq_true_eq] at counts
    have ⟨⟨⟨ready, left⟩, running, alive⟩, own⟩ := counts
    have others : ∀ other ∈ mine, pod ∉ excess (step other) pods := by
      intro other otherFound taken
      have ownsToo : ownedBy pod (uidOf other) = true := by
        have counted := active_of_mem_excess taken
        rw [active_congr (same other)] at counted
        exact (mem_filter.mp (mem_filter.mp counted).1).2
      have alone := listed.oneOwner pod member
      rw [countP_eq_length_filter] at alone
      obtain rfl : rs = other := eq_of_length_le_one alone
        (mem_filter.mpr ⟨found, own⟩) (mem_filter.mpr ⟨otherFound, ownsToo⟩)
      exact left taken
    simp only [and_eq_true, List.any_eq_true, List.all_eq_true, List.mem_map,
      decide_eq_true_eq, forall_exists_index, and_imp, forall_apply_eq_imp_iff₂]
    exact ⟨⟨⟨⟨ready, running⟩, alive⟩, step rs, ⟨rs, found, rfl⟩, (ownedSame rs pod).trans own⟩,
      others⟩

/-- A rolling update keeps its floor, where the Pods that are not ready are the ones that the
ReplicaSets it scales down give up first. -/
theorem floor_kept (hash : Value → String) (deploy : Value) (sets pods : List Value)
    (listed : Listed (owned deploy sets) pods) (steady : ∀ rs ∈ owned deploy sets, Steady pods rs)
    (first : ∀ rs ∈ reconcileDeployment hash deploy sets, UnreadyFirst rs pods) :
    let after := reconcileDeployment hash deploy sets
    min (readyPods (owned deploy sets) pods).length
      (desiredReplicas deploy - maxUnavailable deploy) ≤
      (readyPods after (afterPasses after pods)).length := by
  have ⟨step, isAfter, same, floor⟩ := @reconcileDeployment_spec hash _ _ _ listed fun rs member =>
    (steady rs member).told
  have counted : (readyPods (owned deploy sets) pods).length ≤
      ((owned deploy sets).map fun rs => (viewOf rs).available).sum := by
    refine (readyPods_le ..).trans (sum_le_sum fun rs member => ?_)
    exact (steady rs member).counted.ge
  have left : ((owned deploy sets).map fun rs =>
      min (viewOf rs).available (ReplicaSet.desired (step rs))).sum ≤
      ((owned deploy sets).map fun rs => (active rs pods).countP fun pod =>
        isPodReady pod && decide (pod ∉ ReplicaSet.excess (step rs) pods)).sum := by
    refine sum_le_sum fun rs member => ?_
    rw [(steady rs member).counted, ← active_congr (same rs)]
    exact ready_left listed.distinct (first _ (isAfter ▸ mem_map_of_mem member))
  rw [isAfter]
  calc min (readyPods (owned deploy sets) pods).length
        (desiredReplicas deploy - maxUnavailable deploy)
      ≤ _ := min_le_min_right _ counted
    _ ≤ _ := floor
    _ ≤ _ := left
    _ ≤ _ := le_readyPods_afterPasses listed same

/-- A Deployment of three replicas that may have one Pod more, and none less. -/
def threeReplicas : Value :=
  .object [("metadata", .object [("name", .string "web"), ("uid", .string "d")]),
    ("spec", .object [("replicas", .number 3), ("strategy", .object [("rollingUpdate", .object
      [("maxSurge", .number 1), ("maxUnavailable", .number 0)])])])]

def replicaSet (name uid : String) (replicas available : Nat) : Value :=
  .object [("metadata", .object [("name", .string name), ("ownerReferences", .array
      [.object [("uid", .string "d")]]), ("uid", .string uid)]),
    ("spec", .object [("replicas", .number replicas)]),
    ("status", .object [("availableReplicas", .number available)])]

def podOf (owner name created ready : String) : Value :=
  .object [("metadata", .object [("creationTimestamp", .string created), ("name", .string name),
      ("ownerReferences", .array [.object [("uid", .string owner)]])]),
    ("status", .object [("conditions", .array [.object [("status", .string ready),
      ("type", .string "Ready")]])])]

/-- Half way: three old replicas, two of them ready, and a new one that is. -/
def halfWay : List Value := [replicaSet "web-old" "old" 3 2, replicaSet "web-new" "new" 1 1]

/-- The old Pod that is not ready is the newest of them. -/
def unreadyNewest : List Value :=
  [podOf "old" "a" "1" "True", podOf "old" "b" "2" "True", podOf "old" "c" "3" "False",
    podOf "new" "d" "4" "True"]

/-- The old Pod that is not ready is the oldest. -/
def unreadyOldest : List Value :=
  [podOf "old" "a" "1" "False", podOf "old" "b" "2" "True", podOf "old" "c" "3" "True",
    podOf "new" "d" "4" "True"]

theorem floor_kept_half_way :
    let after := reconcileDeployment (fun _ => "new") threeReplicas halfWay
    (readyPods (owned threeReplicas halfWay) unreadyNewest).length = 3 ∧
      (after.map fun rs => rs["spec"]["replicas"]) = [.number 2, .number 1] ∧
      3 ≤ (readyPods after (afterPasses after unreadyNewest)).length := by
  have listed : Listed (owned threeReplicas halfWay) unreadyNewest :=
    ⟨by decide +kernel, by decide +kernel, by decide +kernel, by decide +kernel⟩
  have steady : ∀ rs ∈ owned threeReplicas halfWay, Steady unreadyNewest rs := by
    intro rs member
    rcases mem_cons.mp member with rfl | rest
    · exact ⟨by decide +kernel, by decide +kernel⟩
    · obtain rfl := mem_singleton.mp rest
      exact ⟨by decide +kernel, by decide +kernel⟩
  have kept := floor_kept (fun _ => "new") threeReplicas halfWay unreadyNewest listed steady
    (by decide +kernel)
  have before : min (readyPods (owned threeReplicas halfWay) unreadyNewest).length
      (desiredReplicas threeReplicas - maxUnavailable threeReplicas) = 3 := by decide +kernel
  exact ⟨by decide +kernel, by decide +kernel, before ▸ kept⟩

/-- The plan takes one old replica away because one is not ready, and the ReplicaSet deletes its
newest Pod, which is. -/
theorem floor_broken :
    ∃ (hash : Value → String) (deploy : Value) (sets pods : List Value),
      let after := reconcileDeployment hash deploy sets
      Listed (owned deploy sets) pods ∧
        (∀ rs ∈ owned deploy sets, (viewOf rs).available = (active rs pods).countP isPodReady ∧
          (active rs pods).length = (viewOf rs).specReplicas) ∧
        (readyPods after (afterPasses after pods)).length <
          min (readyPods (owned deploy sets) pods).length
            (desiredReplicas deploy - maxUnavailable deploy) :=
  ⟨fun _ => "new", threeReplicas, halfWay, unreadyOldest,
    ⟨by decide +kernel, by decide +kernel, by decide +kernel, by decide +kernel⟩,
    by decide +kernel, by decide +kernel⟩

end Rustkube.Rollout
