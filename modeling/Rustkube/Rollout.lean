import Rustkube.NodeUsage

/- One step of a Deployment's rollout: how many replicas each of its ReplicaSets is told to run. -/
namespace Rustkube.Rollout

open List Json

/-- What an addition or a product of `u64`s leaves. -/
def word (number : Nat) : Nat := number % 2 ^ 64

theorem word_le (number : Nat) : word number ≤ number := Nat.mod_le ..

/-- `value.as_u64()` -/
def count? (value : Value) : Option Nat := (Scheduler.asU64? value).map UInt64.toNat

theorem count?_lt {value : Value} {number : Nat} (counted : count? value = some number) :
    number < 2 ^ 64 := by
  obtain ⟨read, -, rfl⟩ := Option.map_eq_some_iff.mp counted
  exact read.toNat_lt

theorem count?_number {number : Nat} (small : number < 2 ^ 64) :
    count? (.number number) = some number := by
  have inRange : (0 ≤ (number : Int) && (number : Int) < 2 ^ 64) = true := by
    simp only [Bool.and_eq_true, decide_eq_true_eq]
    omega
  simp only [count?, Scheduler.asU64?, Value.asInt?, Option.filter_some, inRange, if_true,
    Option.map_some, Int.toNat_natCast, UInt64.toNat_ofNat', Nat.mod_eq_of_lt small]

/-- A `maxSurge` or `maxUnavailable`, against a number of replicas: a number, or a percentage. -/
def intOrPercent (value : Value) (total : Nat) (roundUp : Bool) : Nat :=
  match count? value with
  | some number => number
  | none =>
    match value.asStr? with
    | some text =>
      match (Text.stripSuffix text "%").bind parseU64Text with
      | some percent =>
        let scaled := word (total * percent)
        if roundUp then (scaled + 99) / 100 else scaled / 100
      | none => (parseU64Text text).getD 0
    | none => 0

/-- What is known of one ReplicaSet. -/
structure RsView where
  name : String
  revision : Nat
  specReplicas : Nat
  /-- `status.availableReplicas` -/
  available : Nat
deriving DecidableEq, Repr

/-- The counts of one pass: the new ReplicaSet's, and those of the old ones that change. -/
structure Plan where
  newReplicas : Nat
  old : List (String × Nat)
deriving DecidableEq, Repr

def totalReplicas (sets : List RsView) : Nat := (sets.map RsView.specReplicas).sum

def totalAvailable (sets : List RsView) : Nat := (sets.map RsView.available).sum

/-- `Recreate`: every old Pod goes before a new one starts. -/
def planRecreate (desired : Nat) (olds : List RsView) : Plan :=
  if 0 < word (totalReplicas olds) then
    ⟨0, (olds.filter (0 < ·.specReplicas)).map fun rs => (rs.name, 0)⟩
  else ⟨desired, []⟩

section

/-- Unhealthy replicas go first, up to a limit in all. -/
def cleanUnhealthy (limit : Nat) : Nat → List RsView → List RsView
  | _, [] => []
  | cleaned, rs :: rest =>
    if limit ≤ cleaned then rs :: rest
    else
      let down := min (rs.specReplicas - rs.available) (limit - cleaned)
      { rs with specReplicas := rs.specReplicas - down } :: cleanUnhealthy limit
        (cleaned + down) rest

/-- Then healthy ones, while the budget lasts. -/
def scaleHealthy : Nat → List RsView → List RsView
  | _, [] => []
  | budget, rs :: rest =>
    if budget = 0 then rs :: rest
    else
      let down := min rs.specReplicas budget
      { rs with specReplicas := rs.specReplicas - down } :: scaleHealthy (budget - down) rest

/-- The old ReplicaSets that run anything, oldest revision first. -/
def oldestFirst (olds : List RsView) : List RsView :=
  (olds.filter (0 < ·.specReplicas)).insertionSort fun left right => left.revision ≤ right.revision

/-- The counts that differ from what the ReplicaSet of that name was told. -/
def changes (olds scaled : List RsView) : List (String × Nat) :=
  (scaled.filter fun rs => olds.any fun old =>
    old.name = rs.name ∧ old.specReplicas ≠ rs.specReplicas).map fun rs =>
      (rs.name, rs.specReplicas)

variable (desired maxSurge maxUnavailable : Nat) (new : RsView) (olds : List RsView)

/-- What the new ReplicaSet is scaled to. -/
def nextReplicas : Nat :=
  let maxTotal := word (desired + maxSurge)
  let currentTotal := word (new.specReplicas + totalReplicas olds)
  let raised :=
    if currentTotal < maxTotal ∧ new.specReplicas < desired then
      new.specReplicas + min (maxTotal - currentTotal) (desired - new.specReplicas)
    else new.specReplicas
  if desired < new.specReplicas then desired else raised

/-- `RollingUpdate`. A pass that scales the new ReplicaSet does nothing else. -/
def planRolling : Plan :=
  let newReplicas := nextReplicas desired maxSurge new olds
  if newReplicas ≠ new.specReplicas then ⟨newReplicas, []⟩
  else
    let minAvailable := desired - maxUnavailable
    let allPods := word (new.specReplicas + totalReplicas olds)
    let newUnavailable := new.specReplicas - new.available
    let maxScaledDown := allPods - minAvailable - newUnavailable
    if maxScaledDown = 0 then ⟨newReplicas, []⟩
    else
      let available := word (new.available + totalAvailable olds)
      let scaled := scaleHealthy (available - minAvailable)
        (cleanUnhealthy maxScaledDown 0 (oldestFirst olds))
      ⟨newReplicas, changes olds scaled⟩

end

variable {befores afters : List RsView} {after : RsView}

/-- The Pods that serve once every ReplicaSet runs what it is told, if a ReplicaSet gives up an
available Pod only when it has no other. -/
def serving (sets : List RsView) : Nat :=
  (sets.map fun rs => min rs.available rs.specReplicas).sum

/-- A ReplicaSet that was told to run at most what it ran before. -/
def Lowered (before after : RsView) : Prop :=
  after.name = before.name ∧ after.available = before.available ∧
    after.specReplicas ≤ before.specReplicas

theorem Lowered.refl (rs : RsView) : Lowered rs rs := ⟨rfl, rfl, le_rfl⟩

theorem Lowered.trans {first second third : RsView} (left : Lowered first second)
    (right : Lowered second third) : Lowered first third :=
  ⟨right.1.trans left.1, right.2.1.trans left.2.1, right.2.2.trans left.2.2⟩

theorem forall₂_lowered_trans {first second third : List RsView}
    (left : List.Forall₂ Lowered first second) (right : List.Forall₂ Lowered second third) :
    List.Forall₂ Lowered first third := by
  induction left generalizing third with
  | nil => exact right
  | cons head _ ih =>
    cases right with
    | cons next rest => exact .cons (head.trans next) (ih rest)

theorem exists_of_mem_right
    (lowered : List.Forall₂ Lowered befores afters) (member : after ∈ afters) :
    ∃ before ∈ befores, Lowered before after := by
  induction lowered with
  | nil => cases member
  | cons head _ ih =>
    rcases mem_cons.mp member with rfl | later
    · exact ⟨_, .head _, head⟩
    · have ⟨before, found, down⟩ := ih later
      exact ⟨before, .tail _ found, down⟩

section

variable (sets : List RsView)

include sets

theorem forall₂_lowered_refl : List.Forall₂ Lowered sets sets :=
  forall₂_same.mpr fun rs _ => .refl rs

theorem cleanUnhealthy_lowered (limit : Nat) (cleaned : Nat) :
    List.Forall₂ Lowered sets (cleanUnhealthy limit cleaned sets) := by
  induction sets generalizing cleaned with
  | nil => exact .nil
  | cons rs rest ih =>
    unfold cleanUnhealthy
    split_ifs
    · exact forall₂_lowered_refl _
    · exact .cons ⟨rfl, rfl, Nat.sub_le ..⟩ (ih _)

theorem serving_cleanUnhealthy (limit : Nat) (cleaned : Nat) :
    serving (cleanUnhealthy limit cleaned sets) = serving sets := by
  induction sets generalizing cleaned with
  | nil => rfl
  | cons rs rest ih =>
    unfold cleanUnhealthy
    split_ifs
    · rfl
    · have tail := ih (cleaned + min (rs.specReplicas - rs.available) (limit - cleaned))
      simp only [serving, map_cons, sum_cons] at tail ⊢
      omega

theorem scaleHealthy_lowered (budget : Nat) :
    List.Forall₂ Lowered sets (scaleHealthy budget sets) := by
  induction sets generalizing budget with
  | nil => exact .nil
  | cons rs rest ih =>
    unfold scaleHealthy
    split_ifs
    · exact forall₂_lowered_refl _
    · exact .cons ⟨rfl, rfl, Nat.sub_le ..⟩ (ih _)

theorem serving_scaleHealthy (budget : Nat) :
    serving sets ≤ serving (scaleHealthy budget sets) + budget := by
  induction sets generalizing budget with
  | nil => simp [serving]
  | cons rs rest ih =>
    unfold scaleHealthy
    split_ifs
    · omega
    · have tail := ih (budget - min rs.specReplicas budget)
      simp only [serving, map_cons, sum_cons] at tail ⊢
      omega

end

theorem serving_eq_totalAvailable {sets : List RsView}
    (told : ∀ rs ∈ sets, rs.available ≤ rs.specReplicas) : serving sets = totalAvailable sets := by
  unfold serving totalAvailable
  congr 1
  exact map_congr_left fun rs member => min_eq_left (told rs member)

/-- What a plan has an old ReplicaSet run. -/
def Plan.oldReplicas (plan : Plan) (old : RsView) : Nat :=
  (plan.old.lookup old.name).getD old.specReplicas

variable {olds scaled : List RsView}

theorem lookup_changes (distinct : (scaled.map RsView.name).Nodup)
    (member : after ∈ scaled) (name : String) (same : after.name = name) :
    (changes olds scaled).lookup name =
      if olds.any (fun old => old.name = after.name ∧ old.specReplicas ≠ after.specReplicas) then
        some after.specReplicas else none := by
  subst same
  induction scaled with
  | nil => cases member
  | cons head rest ih =>
    have apart := (nodup_cons.mp distinct).1
    have restDistinct := (nodup_cons.mp distinct).2
    rcases mem_cons.mp member with rfl | later
    · unfold changes
      rw [filter_cons]
      split_ifs with changed
      · simp
      · refine lookup_eq_none_iff.mpr fun entry kept => ?_
        obtain ⟨other, otherKept, rfl⟩ := mem_map.mp kept
        have differs : other.name ≠ after.name := fun same =>
          apart (same ▸ mem_map_of_mem (mem_filter.mp otherKept).1)
        simpa using differs.symm
    · have differs : after.name ≠ head.name := fun same =>
        apart (same ▸ mem_map_of_mem later)
      have skipped : (changes olds (head :: rest)).lookup after.name =
          (changes olds rest).lookup after.name := by
        unfold changes
        rw [filter_cons]
        split_ifs
        · rw [map_cons, lookup_cons_of_ne differs]
        · rfl
      rw [skipped, ih restDistinct later]

theorem oldReplicas_changes (distinct : (scaled.map RsView.name).Nodup) {newReplicas : Nat}
    {before : RsView} (old : before ∈ olds) (member : after ∈ scaled)
    (same : after.name = before.name) :
    Plan.oldReplicas ⟨newReplicas, changes olds scaled⟩ before = after.specReplicas := by
  unfold Plan.oldReplicas
  rw [lookup_changes distinct member before.name same]
  split_ifs with changed
  · rfl
  · simp only [any_eq_true, decide_eq_true_eq, not_exists, not_and, not_not] at changed
    exact changed before old same.symm

theorem oldestFirst_perm (olds : List RsView) :
    (oldestFirst olds).Perm (olds.filter (0 < ·.specReplicas)) := perm_insertionSort ..

theorem map_name_eq (lowered : List.Forall₂ Lowered befores afters) :
    afters.map RsView.name = befores.map RsView.name := by
  induction lowered with
  | nil => rfl
  | cons same _ ih => rw [map_cons, map_cons, same.1, ih]

theorem sum_oldReplicas {plan : Plan} (lowered : List.Forall₂ Lowered befores scaled)
    (planned : ∀ before ∈ befores, ∀ after ∈ scaled, after.name = before.name →
      plan.oldReplicas before = after.specReplicas) :
    (befores.map fun old => min old.available (plan.oldReplicas old)).sum = serving scaled := by
  induction lowered with
  | nil => rfl
  | @cons before after befores afters same _ ih =>
    have head := planned before (.head _) after (.head _) same.1
    have tail := ih fun other member later found =>
      planned other (.tail _ member) later (.tail _ found)
    rw [serving] at tail ⊢
    rw [map_cons, sum_cons, map_cons, sum_cons, tail, head, same.2.1]

variable {desired maxSurge maxUnavailable : Nat} {new : RsView}

section

variable (told : ∀ rs ∈ olds, rs.available ≤ rs.specReplicas)

include told

theorem sum_running (count : RsView → Nat) :
    ((oldestFirst olds).map fun old => min old.available (count old)).sum =
      (olds.map fun old => min old.available (count old)).sum := by
  rw [((oldestFirst_perm olds).map _).sum_eq]
  induction olds with
  | nil => rfl
  | cons head rest ih =>
    have tail := ih fun rs member => told rs (.tail _ member)
    have bounded := told head (.head _)
    rw [filter_cons, map_cons, sum_cons]
    split_ifs with running
    · rw [map_cons, sum_cons, tail]
    · have idle : head.specReplicas = 0 := by simpa using running
      omega

/-- What is available of what a scaled-down rollout is told to run. -/
theorem sum_scaled (distinct : (olds.map RsView.name).Nodup) (limit newReplicas budget : Nat) :
    let scaled := scaleHealthy budget (cleanUnhealthy limit 0 (oldestFirst olds))
    (olds.map fun old =>
      min old.available (Plan.oldReplicas ⟨newReplicas, changes olds scaled⟩ old)).sum =
          serving scaled := by
  intro scaled
  have lowered : Forall₂ Lowered (oldestFirst olds) scaled :=
    forall₂_lowered_trans (cleanUnhealthy_lowered ..) (scaleHealthy_lowered ..)
  have running : (oldestFirst olds).Subset olds := fun rs member =>
    (mem_filter.mp ((oldestFirst_perm olds).mem_iff.mp member)).1
  have scaledDistinct : (scaled.map RsView.name).Nodup := by
    rw [map_name_eq lowered, ((oldestFirst_perm olds).map _).nodup_iff]
    exact distinct.sublist (filter_sublist.map _)
  rw [← sum_running told, sum_oldReplicas lowered fun before member after found same =>
    oldReplicas_changes scaledDistinct (running member) found same]

theorem serving_cleaned (limit : Nat) :
    serving (cleanUnhealthy limit 0 (oldestFirst olds)) = totalAvailable olds := by
  rw [serving_cleanUnhealthy, ← serving_eq_totalAvailable told]
  exact sum_running told RsView.specReplicas

end

/-- A rolling step keeps the floor, as long as a ReplicaSet gives up an available Pod only when it
has no other. -/
theorem planRolling_floor (newTold : new.available ≤ new.specReplicas)
    (told : ∀ rs ∈ olds, rs.available ≤ rs.specReplicas) (distinct : (olds.map RsView.name).Nodup) :
    let plan := planRolling desired maxSurge maxUnavailable new olds
    min (new.available + totalAvailable olds) (desired - maxUnavailable) ≤
      min new.available plan.newReplicas +
        (olds.map fun old => min old.available (plan.oldReplicas old)).sum := by
  have untouched : (olds.map fun old => min old.available old.specReplicas).sum =
      totalAvailable olds := serving_eq_totalAvailable told
  unfold planRolling
  dsimp only
  split_ifs with scaled none
  case neg =>
    have kept : min new.available (nextReplicas desired maxSurge new olds) = new.available := by
      rw [not_not.mp scaled]
      exact min_eq_left newTold
    rw [kept, sum_scaled told distinct]
    refine le_trans ?_ (Nat.add_le_add_left (Nat.sub_le_of_le_add (serving_scaleHealthy ..)) _)
    rw [serving_cleaned told]
    have counted := word_le (new.available + totalAvailable olds)
    omega
  all_goals
    change _ ≤ min _ (nextReplicas desired maxSurge new olds) +
      (olds.map fun old => min old.available old.specReplicas).sum
    have reached : min new.specReplicas desired ≤ nextReplicas desired maxSurge new olds := by
      unfold nextReplicas
      dsimp only
      split_ifs <;> omega
    omega

/-- A rolling step only lowers old ReplicaSets. -/
theorem planRolling_old : ∀ entry ∈ (planRolling desired maxSurge maxUnavailable new olds).old,
    ∃ old ∈ olds, old.name = entry.1 ∧ entry.2 ≤ old.specReplicas := by
  unfold planRolling
  dsimp only
  split_ifs
  · exact nofun
  · exact nofun
  · intro entry member
    obtain ⟨scaled, kept, rfl⟩ := mem_map.mp member
    have ⟨old, found, same, _, down⟩ := exists_of_mem_right
      (forall₂_lowered_trans (cleanUnhealthy_lowered ..) (scaleHealthy_lowered ..))
      (mem_filter.mp kept).1
    exact ⟨old, (mem_filter.mp ((oldestFirst_perm olds).mem_iff.mp found)).1, same.symm, down⟩

/-- Every count of a plan is below a limit. -/
structure Plan.Below (limit : Nat) (plan : Plan) : Prop where
  new : plan.newReplicas < limit
  old : ∀ entry ∈ plan.old, entry.2 < limit

variable {limit : Nat} (small : desired < limit)

include small

theorem planRecreate_below : (planRecreate desired olds).Below limit := by
  unfold planRecreate
  split_ifs
  · refine ⟨by dsimp only; omega, fun entry member => ?_⟩
    obtain ⟨rs, -, rfl⟩ := mem_map.mp member
    omega
  · exact ⟨small, fun entry member => by cases member⟩

theorem planRolling_below (newSmall : new.specReplicas < limit)
    (oldSmall : ∀ old ∈ olds, old.specReplicas < limit) :
    (planRolling desired maxSurge maxUnavailable new olds).Below limit := by
  have next : nextReplicas desired maxSurge new olds < limit := by
    unfold nextReplicas
    dsimp only
    split_ifs <;> omega
  constructor
  · unfold planRolling
    dsimp only
    split_ifs <;> exact next
  · intro entry member
    have ⟨old, running, _, down⟩ := planRolling_old entry member
    exact lt_of_le_of_lt down (oldSmall old running)

end Rustkube.Rollout
