import Rustkube.ControllerObjects
import Rustkube.Rollout

/- A ReplicaSet's pass over its Pods. -/
namespace Rustkube.ReplicaSet

open List Json Controllers Rollout

def hasEnded (pod : Value) : Bool :=
  let phase := pod["status"]["phase"].asStr?.getD "Pending"
  phase = "Succeeded" ∨ phase = "Failed"

def isPodReady (pod : Value) : Bool :=
  match pod["status"]["conditions"].asArray? with
  | some conditions => conditions.any fun condition =>
    condition["type"].asStr? = some "Ready" ∧ condition["status"].asStr? = some "True"
  | none => false

/-- The Pods that count toward `replicas`. A Pod under deletion is neither active nor terminal. -/
def active (rs : Value) (pods : List Value) : List Value :=
  (pods.filter (ownedBy · (uidOf rs))).filter fun pod => !hasEnded pod && !isDeleting pod

def terminal (rs : Value) (pods : List Value) : List Value :=
  (pods.filter (ownedBy · (uidOf rs))).filter fun pod => hasEnded pod && !isDeleting pod

def created (pod : Value) : String := textOf pod["metadata"]["creationTimestamp"]

/-- Pods of one timestamp keep the order they were listed in. -/
def newestFirst (pods : List Value) : List Value :=
  pods.insertionSort fun left right => created right ≤ created left

/-- What the ReplicaSet is told to run. -/
def desired (rs : Value) : Nat := (count? rs["spec"]["replicas"]).getD 1

/-- What one pass asks for. -/
structure Pass where
  /-- terminal Pods that are collected; the newest stays -/
  collected : List Value
  creates : Nat
  excess : List Value
  /-- `status.replicas` -/
  replicas : Nat
  /-- `status.readyReplicas`, and `status.availableReplicas` -/
  readyReplicas : Nat
deriving DecidableEq

def named (pods : List Value) : List Value := pods.filter (nameOf · ≠ "")

/-- The pass of a ReplicaSet that is not being deleted. `createAllowed` is the recreation
back-off's answer. -/
def reconcileReplicaset (createAllowed : Bool) (rs : Value) (pods : List Value) : Option Pass :=
  if isDeleting rs then none
  else
    let running := active rs pods
    let current := running.length
    some {
      collected := named ((newestFirst (terminal rs pods)).drop 1)
      creates := if current < desired rs ∧ createAllowed then desired rs - current else 0
      excess := if desired rs < current then
        named ((newestFirst running).take (current - desired rs)) else []
      replicas := current
      readyReplicas := running.countP isPodReady }

/-- The active Pods a pass deletes. -/
def excess (rs : Value) (pods : List Value) : List Value :=
  ((reconcileReplicaset true rs pods).map Pass.excess).getD []

variable {rs : Value} {pods : List Value}

theorem newestFirst_perm (pods : List Value) : (newestFirst pods).Perm pods := perm_insertionSort ..

theorem excess_subset (rs : Value) (pods : List Value) :
    excess rs pods ⊆ (newestFirst (active rs pods)).take
      ((active rs pods).length - desired rs) := by
  unfold excess reconcileReplicaset
  split_ifs with deleting
  · exact nil_subset _
  · simp only [Option.map_some, Option.getD_some]
    split_ifs with many
    · exact filter_sublist.subset
    · exact nil_subset _

theorem active_of_mem_excess {pod : Value} (member : pod ∈ excess rs pods) : pod ∈ active rs pods :=
  (newestFirst_perm _).mem_iff.mp (mem_of_mem_take (excess_subset rs pods member))

/-- A ReplicaSet that runs more than it is told takes no ready Pod away while one that is not ready
stays. -/
def UnreadyFirst (rs : Value) (pods : List Value) : Prop :=
  let count := (active rs pods).length - desired rs
  ∀ gone ∈ (newestFirst (active rs pods)).take count, isPodReady gone →
    ∀ left ∈ (newestFirst (active rs pods)).drop count, isPodReady left

instance (rs : Value) (pods : List Value) : Decidable (UnreadyFirst rs pods) := by
  unfold UnreadyFirst
  infer_instance

theorem ready_left (distinct : pods.Nodup) (first : UnreadyFirst rs pods) :
    min ((active rs pods).countP isPodReady) (desired rs) ≤
      (active rs pods).countP fun pod => isPodReady pod && decide (pod ∉ excess rs pods) := by
  set running := active rs pods with isRunning
  have sorted := newestFirst_perm running
  have sortedDistinct : (newestFirst running).Nodup :=
    sorted.nodup_iff.mpr ((distinct.filter _).filter _)
  set count := running.length - desired rs with isCount
  have kept : ∀ pod ∈ (newestFirst running).drop count, pod ∉ excess rs pods := by
    intro pod left taken
    have apart := disjoint_of_nodup_append
      ((take_append_drop count (newestFirst running)).symm ▸ sortedDistinct)
    exact apart (excess_subset rs pods taken) left
  calc min (running.countP isPodReady) (desired rs)
      ≤ min ((newestFirst running).countP isPodReady) ((newestFirst running).length - count) := by
        have bounded := @countP_le_length _ isPodReady running
        rw [sorted.countP_eq, sorted.length_eq]
        omega
    _ ≤ ((newestFirst running).drop count).countP isPodReady := by
        by_cases spared : ∃ gone ∈ (newestFirst running).take count, isPodReady gone = true
        · have ⟨gone, taken, ready⟩ := spared
          rw [countP_eq_length.mpr (first gone taken ready), length_drop]
          exact Nat.min_le_right ..
        · have none : ((newestFirst running).take count).countP isPodReady = 0 :=
            countP_eq_zero.mpr fun gone taken ready => spared ⟨gone, taken, ready⟩
          have all := congrArg (countP isPodReady) (take_append_drop count (newestFirst running))
          rw [countP_append, none, Nat.zero_add] at all
          exact all ▸ Nat.min_le_left ..
    _ = ((newestFirst running).drop count).countP
          fun pod => isPodReady pod && decide (pod ∉ excess rs pods) :=
        countP_congr fun pod member => by simp [kept pod member]
    _ ≤ (newestFirst running).countP fun pod => isPodReady pod && decide (pod ∉ excess rs pods) :=
        (drop_sublist ..).countP_le
    _ = running.countP fun pod => isPodReady pod && decide (pod ∉ excess rs pods) :=
      sorted.countP_eq _

end Rustkube.ReplicaSet
