import Rustkube.SchedulingState

/- The scheduler's sums, over every run of the calls that change what it knows. -/
namespace Rustkube.Scheduler

open AList List Option SchedulingState Json

/-- A call that changes what the scheduler knows. -/
inductive Operation where
  | observe (vm : Bool) (delta : Delta)
  | remove (key : ScheduleKey)
  | reserve (key : ScheduleKey) (object : Value) (node : String) (waiting : Bool)
  | reserveTarget (key : ScheduleKey) (object : Value) (node : String)

variable (quantities : Quantities)

/-- No result is a panic. -/
def Operation.run (state : SchedulingState) : Operation → Option SchedulingState
  | .observe vm delta => some (state.observe quantities vm delta)
  | .remove key => some (state.remove quantities key)
  | .reserve key object node waiting => some (state.reserve key object node waiting)
  | .reserveTarget key object node => state.reserveTarget quantities key object node

namespace SchedulingState

/-- The sum of what the entries of `placed` and `targets` take of a node, as a number. -/
def heldOn (state : SchedulingState) (node : String) (resource : NodeUsage.Resource) : Nat :=
  (state.held.map fun charge => ((charge.on quantities node).amount resource).toNat).sum

/-- An entry that `unchargeEntry` takes from `usage` is no more than is there. -/
def Covered (usage : String → NodeUsage) (map : AList fun _ : ScheduleKey => String × Value)
    (key : ScheduleKey) : Prop :=
  ∀ entry, map.lookup key = some entry → ∀ node resource,
    (taken quantities node key entry).amount resource ≤ (usage node).amount resource

/-- The two subtractions of `remove` and of `observe` for a key. -/
def UnchargesCovered (state : SchedulingState) (key : ScheduleKey) : Prop :=
  Covered quantities state.usage state.placed key ∧
    Covered quantities (unchargeEntry quantities state.usage state.placed key) state.targets key

variable {quantities} {state : SchedulingState}

theorem runs_accounted {operations : List Operation} {before : SchedulingState}
    (accounted : before.Accounted quantities)
    (ran : operations.foldlM (Operation.run quantities) before = some state) :
    state.Accounted quantities := by
  induction operations generalizing before with
  | nil => exact some.inj ran ▸ accounted
  | cons operation rest ih =>
    have ⟨middle, first, ran⟩ := bind_eq_some_iff.mp ran
    refine ih ?_ ran
    cases operation with
    | observe vm delta => exact some.inj first ▸ observe_accounted accounted vm delta
    | remove key => exact some.inj first ▸ remove_accounted accounted
    | reserve key object node waiting => exact some.inj first ▸ accounted
    | reserveTarget key object node =>
      have ⟨shim, _, made⟩ := bind_eq_some_iff.mp first
      exact some.inj made ▸ accounted

section

variable (accounted : state.Accounted quantities)
  (fits : ∀ node resource, state.heldOn quantities node resource < 2 ^ 64)

include accounted fits

theorem usage_eq_heldOn (node : String) (resource : NodeUsage.Resource) :
    ((state.usage node).amount resource).toNat = state.heldOn quantities node resource := by
  have sum := fits node resource
  unfold heldOn at sum ⊢
  rw [accounted node, NodeUsage.amount_sum, Ledger.toNat_sum, List.map_map, List.map_map]
  · rfl
  · simpa [Function.comp_def] using sum

theorem unchargesCovered (key : ScheduleKey) : state.UnchargesCovered quantities key := by
  have parts node resource : state.heldOn quantities node resource =
      (state.placed.entries.map fun entry =>
        ((taken quantities node entry.1 entry.2).amount resource).toNat).sum +
      (state.targets.entries.map fun entry =>
        ((taken quantities node entry.1 entry.2).amount resource).toNat).sum := by
    simp [heldOn, held, taken, Function.comp_def]
  have part {map : AList fun _ : ScheduleKey => String × Value} {entry : String × Value}
      (found : map.lookup key = some entry) (node : String) (resource : NodeUsage.Resource) :
      ((taken quantities node key entry).amount resource).toNat ≤ (map.entries.map fun entry =>
        ((taken quantities node entry.1 entry.2).amount resource).toNat).sum :=
    le_sum_of_mem (mem_map.mpr ⟨⟨key, entry⟩, mem_lookup_iff.mp found, rfl⟩)
  have first : Covered quantities state.usage state.placed key := by
    intro entry found node resource
    rw [UInt64.le_iff_toNat_le, usage_eq_heldOn accounted fits, parts]
    exact Nat.le_add_right_of_le (part found node resource)
  refine ⟨first, fun entry found node resource => ?_⟩
  have usage := usage_eq_heldOn accounted fits node resource
  have mine := part found node resource
  rw [parts] at usage
  rw [UInt64.le_iff_toNat_le]
  unfold unchargeEntry
  cases here : state.placed.lookup key with
  | none => exact mine.trans (by rw [usage]; exact Nat.le_add_left ..)
  | some other =>
    have less : ((uncharge quantities state.usage ⟨key, other.1, other.2⟩ node).amount
        resource).toNat = ((state.usage node).amount resource).toNat -
          ((taken quantities node key other).amount resource).toNat := by
      have covered := first other here node resource
      cases resource <;> exact UInt64.toNat_sub_of_le _ _ covered
    have theirs := part here node resource
    dsimp only
    omega

end

theorem heldOn_forget_le (vm : Bool) (delta : Delta) (node : String)
    (resource : NodeUsage.Resource) :
    (state.forget quantities vm delta).heldOn quantities node resource ≤
      state.heldOn quantities node resource := by
  have fewer (key : ScheduleKey) : ((state.remove quantities key).held).Sublist state.held :=
    ((kerase_sublist ..).append (kerase_sublist ..)).map _
  unfold forget
  split
  · split_ifs
    · exact le_rfl
    · exact ((fewer _).map _).sum_le_sum fun _ _ => Nat.zero_le _
  · exact le_rfl

end SchedulingState

/-- What every run leaves in `usage`, and that a call on it takes nothing away that is not there:
what `observe` takes of the new object, it takes after it forgot the old one. -/
theorem usage_counts_placements (quantities : Quantities) (operations : List Operation)
    (state : SchedulingState)
    (ran : operations.foldlM (Operation.run quantities) .empty = some state)
    (fits : ∀ node resource, state.heldOn quantities node resource < 2 ^ 64) :
    (∀ node resource, ((state.usage node).amount resource).toNat =
      state.heldOn quantities node resource) ∧
    ∀ key vm delta, state.UnchargesCovered quantities key ∧
      (state.forget quantities vm delta).UnchargesCovered quantities key := by
  have accounted : state.Accounted quantities := runs_accounted (fun _ => rfl) ran
  refine ⟨usage_eq_heldOn accounted fits,
    fun key vm delta => ⟨unchargesCovered accounted fits key, ?_⟩⟩
  exact unchargesCovered (forget_accounted accounted vm delta) (fun node resource =>
    (heldOn_forget_le vm delta node resource).trans_lt (fits node resource)) key

/-- A Pod on a node, with containers that ask for some memory. -/
def askingPod (memory : List String) : Value :=
  .object [("metadata", .object [("name", .string "web"), ("uid", .string "1")]),
    ("spec", .object [("containers", .array (memory.map fun amount => .object [("resources",
      .object [("requests", .object [("memory", .string amount)])])])), ("nodeName", .string "a")])]

/-- The Pod is placed, then resized and placed again, which takes away what it had. -/
def resized (before after : List String) : SchedulingState :=
  (SchedulingState.empty.observe plainNumbers false ⟨none, some (askingPod before)⟩).observe
    plainNumbers false ⟨some (askingPod before), some (askingPod after)⟩

theorem usage_counts_placements_pod :
    (((resized ["5"] ["2", "1"]).usage "a").amount .memory).toNat = 3 := by
  refine ((usage_counts_placements plainNumbers [.observe false ⟨none, some (askingPod ["5"])⟩,
    .observe false ⟨some (askingPod ["5"]), some (askingPod ["2", "1"])⟩]
    (resized ["5"] ["2", "1"]) rfl fun node resource => ?_).1 "a" .memory).trans (by decide +kernel)
  exact UInt64.toNat_lt _

end Rustkube.Scheduler
