import Rustkube.Rollout

/- A rolling update comes to its end if whatever its passes tell to run becomes available. -/
namespace Rustkube.Rollout

open List

/-- The new ReplicaSet and the old ones, as a pass finds them. -/
structure Views where
  new : RsView
  olds : List RsView

/-- What the ReplicaSets are told to run. -/
def Views.told (views : Views) : Nat := views.new.specReplicas + totalReplicas views.olds

/-- It runs what it is told, and all of it is available. -/
def RsView.settle (rs : RsView) (replicas : Nat) : RsView :=
  { rs with specReplicas := replicas, available := replicas }

variable (desired maxSurge maxUnavailable : Nat) (views : Views)

/-- A pass, and then what it told becomes available. -/
def pass : Views :=
  let plan := planRolling desired maxSurge maxUnavailable views.new views.olds
  ⟨views.new.settle plan.newReplicas, views.olds.map fun old => old.settle (plan.oldReplicas old)⟩

/-- How many replicas a rollout still has to start or to stop. -/
def remaining : Nat :=
  (views.new.specReplicas - desired) + (desired - views.new.specReplicas) + totalReplicas views.olds

structure Views.Counted : Prop where
  new : views.new.available ≤ views.new.specReplicas
  olds : ∀ old ∈ views.olds, old.available ≤ old.specReplicas
  /-- ReplicaSets of one namespace. -/
  distinct : (views.olds.map RsView.name).Nodup
  /-- No sum of a pass overflows. -/
  inRange : views.told < 2 ^ 64

structure Views.Settled : Prop where
  new : views.new.available = views.new.specReplicas
  olds : ∀ old ∈ views.olds, old.available = old.specReplicas

variable {desired maxSurge maxUnavailable} {views}

theorem pass_new : (pass desired maxSurge maxUnavailable views).new.specReplicas =
    nextReplicas desired maxSurge views.new views.olds := by
  unfold pass planRolling
  dsimp only [RsView.settle]
  split_ifs <;> rfl

theorem pass_olds : totalReplicas (pass desired maxSurge maxUnavailable views).olds =
    (views.olds.map
      (planRolling desired maxSurge maxUnavailable views.new views.olds).oldReplicas).sum := by
  unfold totalReplicas pass
  rw [map_map]
  rfl

theorem settled_pass : (pass desired maxSurge maxUnavailable views).Settled :=
  ⟨rfl, forall_mem_map.mpr fun _ _ => rfl⟩

theorem serving_scaleHealthy_eq {sets : List RsView}
    (healthy : ∀ rs ∈ sets, rs.specReplicas ≤ rs.available) (budget : Nat) :
    serving (scaleHealthy budget sets) = serving sets - budget := by
  induction sets generalizing budget with
  | nil => exact (Nat.zero_sub _).symm
  | cons rs rest ih =>
    have tail := ih (fun rs member => healthy rs (.tail _ member))
      (budget - min rs.specReplicas budget)
    have head := healthy rs (.head _)
    unfold scaleHealthy
    split_ifs
    · omega
    · simp only [serving, map_cons, sum_cons] at tail ⊢
      omega

section

variable (counted : views.Counted)

include counted

theorem oldReplicas_le {old : RsView} (member : old ∈ views.olds) :
    (planRolling desired maxSurge maxUnavailable views.new views.olds).oldReplicas old ≤
      old.specReplicas := by
  unfold Plan.oldReplicas
  cases found :
    lookup old.name (planRolling desired maxSurge maxUnavailable views.new views.olds).old with
  | none => exact le_rfl
  | some replicas =>
    have ⟨_, _, split, _⟩ := lookup_eq_some_iff.mp found
    have ⟨before, isOld, same, down⟩ := planRolling_old _ (split ▸ mem_append_right _ (.head _))
    obtain rfl : before = old := inj_on_of_nodup_map counted.distinct isOld member same
    exact down

theorem pass_olds_le :
    totalReplicas (pass desired maxSurge maxUnavailable views).olds ≤ totalReplicas views.olds := by
  rw [pass_olds]
  exact sum_le_sum fun old member => oldReplicas_le counted member

theorem word_told : word (views.new.specReplicas + totalReplicas views.olds) = views.told :=
  Nat.mod_eq_of_lt counted.inRange

/-- No pass raises what is told above the ceiling. -/
theorem told_pass : (pass desired maxSurge maxUnavailable views).told ≤
    max views.told (desired + maxSurge) := by
  have olds := @pass_olds_le desired maxSurge maxUnavailable _ counted
  have ceiling := word_le (desired + maxSurge)
  have new := @pass_new desired maxSurge maxUnavailable views
  unfold nextReplicas at new
  rw [word_told counted] at new
  dsimp only at new
  unfold Views.told at new ⊢
  split_ifs at new <;> omega

theorem counted_pass (small : desired + maxSurge < 2 ^ 64) :
    (pass desired maxSurge maxUnavailable views).Counted := by
  have settled := @settled_pass desired maxSurge maxUnavailable views
  refine ⟨settled.new.le, fun old member => (settled.olds old member).le, ?_, ?_⟩
  · unfold pass
    rw [map_map]
    exact counted.distinct
  · exact (told_pass counted).trans_lt (max_lt counted.inRange small)

/-- While there is something to start or to stop, a pass over a settled rollout does some of it. -/
theorem remaining_pass (settled : views.Settled) (small : desired + maxSurge < 2 ^ 64)
    (moves : maxSurge ≠ 0 ∨ maxUnavailable ≠ 0)
    (left : remaining desired views ≠ 0) :
    remaining desired (pass desired maxSurge maxUnavailable views) < remaining desired views := by
  have total := word_told counted
  have ceiling : word (desired + maxSurge) = desired + maxSurge := Nat.mod_eq_of_lt small
  have all : totalAvailable views.olds = totalReplicas views.olds :=
    congrArg sum (map_congr_left settled.olds)
  have olds : totalReplicas (pass desired maxSurge maxUnavailable views).olds =
      (views.olds.map fun old => min old.available
        ((planRolling desired maxSurge maxUnavailable views.new views.olds).oldReplicas
            old)).sum := by
    rw [pass_olds]
    refine congrArg sum (map_congr_left fun old member => ?_)
    rw [settled.olds old member, min_eq_right (oldReplicas_le counted member)]
  have stuck (same : nextReplicas desired maxSurge views.new views.olds = views.new.specReplicas) :
      views.new.specReplicas ≤ desired ∧
        (desired ≤ views.new.specReplicas ∨ desired + maxSurge ≤ views.told) := by
    unfold nextReplicas at same
    rw [total, ceiling] at same
    dsimp only at same
    split_ifs at same <;> omega
  unfold remaining at left ⊢
  unfold Views.told at total stuck
  rw [pass_new, olds]
  unfold planRolling
  dsimp only
  split_ifs with scaled none
  · -- the new ReplicaSet comes nearer to what is desired
    change _ + serving views.olds < _
    rw [serving_eq_totalAvailable counted.olds, all]
    unfold nextReplicas at scaled ⊢
    dsimp only at scaled ⊢
    split_ifs at scaled ⊢ <;> omega
  · have := stuck (not_not.mp scaled)
    rw [total, settled.new] at none
    omega
  · have := stuck (not_not.mp scaled)
    rw [total, settled.new] at none
    rw [sum_scaled counted.olds counted.distinct, serving_scaleHealthy_eq,
      serving_cleaned counted.olds, not_not.mp scaled, settled.new, all, total]
    · omega
    · intro rs member
      have ⟨before, found, _, same, down⟩ := exists_of_mem_right (cleanUnhealthy_lowered ..) member
      have running := (mem_filter.mp ((oldestFirst_perm views.olds).mem_iff.mp found)).1
      rw [same, settled.olds before running]
      exact down

theorem settled_converges (settled : views.Settled) (small : desired + maxSurge < 2 ^ 64)
    (moves : maxSurge ≠ 0 ∨ maxUnavailable ≠ 0) :
    ∃ passes, remaining desired ((pass desired maxSurge maxUnavailable)^[passes] views) = 0 := by
  induction number : remaining desired views using Nat.strong_induction_on generalizing views with
  | _ number ih =>
    by_cases left : remaining desired views = 0
    · exact ⟨0, left⟩
    · have fewer := remaining_pass counted settled small moves left
      have ⟨passes, reached⟩ := ih _ (number ▸ fewer) (counted_pass counted small) settled_pass rfl
      exact ⟨passes + 1, reached⟩

end

/-- A rolling update keeps to its ceiling and comes to its end. -/
theorem rollout_converges (desired maxSurge maxUnavailable : Nat) (small : desired < 2 ^ 31)
    (smallSurge : maxSurge < 2 ^ 31) (moves : maxSurge ≠ 0 ∨ maxUnavailable ≠ 0) (views : Views)
    (counted : views.Counted) :
    (pass desired maxSurge maxUnavailable views).told ≤ max views.told (desired + maxSurge) ∧
    ∃ passes, let reached := (pass desired maxSurge maxUnavailable)^[passes] views
      reached.new.specReplicas = desired ∧ ∀ old ∈ reached.olds, old.specReplicas = 0 := by
  refine ⟨told_pass counted, ?_⟩
  have small : desired + maxSurge < 2 ^ 64 := by omega
  have ⟨passes, reached⟩ := settled_converges (counted_pass counted small)
    (@settled_pass _ _ maxUnavailable _) small moves
  refine ⟨passes + 1, ?_⟩
  unfold remaining totalReplicas at reached
  simp only [Nat.add_eq_zero_iff, sum_eq_zero_iff, forall_mem_map] at reached
  exact ⟨Nat.le_antisymm (Nat.le_of_sub_eq_zero reached.1.1) (Nat.le_of_sub_eq_zero reached.1.2),
    reached.2⟩

theorem rollout_converges_surge : ∃ passes,
    ((pass 2 1 0)^[passes] ⟨⟨"new", 2, 0, 0⟩, [⟨"old", 1, 2, 2⟩]⟩).new.specReplicas = 2 := by
  have ⟨passes, reached, _⟩ := (rollout_converges 2 1 0 (by decide) (by decide) (by decide)
    ⟨⟨"new", 2, 0, 0⟩, [⟨"old", 1, 2, 2⟩]⟩ ⟨by decide, by decide, by decide, by decide⟩).2
  exact ⟨passes, reached⟩

/-- A total that overflows hides what the old ReplicaSets run. -/
theorem rollout_exceeds_ceiling :
    let views : Views := ⟨⟨"new", 3, 0, 0⟩, [⟨"a", 1, 2 ^ 63, 0⟩, ⟨"b", 2, 2 ^ 63, 0⟩]⟩
    max views.told (1 + 1) < (pass 1 1 0 views).told := by
  decide +kernel

end Rustkube.Rollout
