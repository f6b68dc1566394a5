import Rustkube.RecreateInvariant

/- Under `Recreate`, what is left of the older ReplicaSets when the new one makes its Pods. -/
namespace Rustkube.Recreate

open List Option Json Controllers Rollout ReplicaSet

variable {hash : Value → String} {deploy : Value}

section

variable {state : State} {view : List (Version Value)} {rs : Value} {write : Write}

theorem oldsIdle_of_view (sound : SetsSound hash deploy state.sets)
    (viewed : Viewed hash deploy state.sets view)
    (small : totalReplicas (olds hash deploy (view.map Version.object)) < 2 ^ 64)
    (idle : word (totalReplicas (olds hash deploy (view.map Version.object))) = 0) :
    OldsIdle hash deploy state.sets := by
  intro name stored current isOld
  have recorded := sound.sound.stored name stored current
  have ⟨seen, inView, (named : nameOf seen.object = name)⟩ :=
    viewed.2 _ recorded isOld (by rw [current]; rfl)
  have seenRecorded : (name, seen) ∈ state.sets.past := named ▸ viewed.1 seen inView
  have kept := sound.kept _ seenRecorded
  have total : totalReplicas (olds hash deploy (view.map Version.object)) = 0 := by
    rwa [word, Nat.mod_eq_of_lt small] at idle
  have isView : viewOf seen.object ∈ olds hash deploy (view.map Version.object) := by
    refine mem_filter.mpr ⟨mem_map_of_mem (mem_filter.mpr
      ⟨mem_map_of_mem inView, kept.owned⟩), ?_⟩
    have different : (viewOf seen.object).name ≠ currentName hash deploy := by
      change nameOf seen.object ≠ _
      rwa [named]
    simpa using different
  have zero : (viewOf seen.object).specReplicas = 0 := by
    have bound := single_le_sum (fun _ _ => Nat.zero_le _) _
      (mem_map_of_mem (f := RsView.specReplicas) isView)
    unfold totalReplicas at total
    omega
  have seenIdle : desired seen.object = 0 := by
    have ⟨count, counted⟩ := isSome_iff_exists.mp kept.counted
    rw [desired_of_counted counted]
    change (count? seen.object["spec"]["replicas"]).getD 0 = 0 at zero
    rwa [counted] at zero
  have marked := sound.idle.kept name seen () seenRecorded
    (idleMark_iff.mpr ⟨named.symm ▸ isOld, seenIdle⟩) stored current
  exact (idleMark_iff.mp marked).2

theorem Decided.pending (sound : SetsSound hash deploy state.sets)
    (viewed : Viewed hash deploy state.sets view)
    (small : totalReplicas (olds hash deploy (view.map Version.object)) < 2 ^ 64)
    (decided : Decided hash deploy view write) : Pending hash deploy state.sets write := by
  cases write with
  | revise seen revision => exact viewed.1 seen decided
  | scale seen replicas =>
    have ⟨inView, bounded, raises⟩ := decided
    refine ⟨viewed.1 seen inView, bounded, fun positive => ?_⟩
    have ⟨named, idle⟩ := raises positive
    exact ⟨named, oldsIdle_of_view sound viewed small idle⟩
  | make | prune => trivial

theorem Invariant.trim (inv : Invariant hash deploy state) {index : Nat}
    {rest left : List Write} (running : state.rollouts[index]? = some (write :: rest))
    (less : left ⊆ rest) :
    Invariant hash deploy { state with rollouts := state.rollouts.set index left } := by
  exact ⟨inv.sets, forall_mem_set inv.rollouts fun other inside =>
    inv.rollouts _ (mem_of_getElem? running) other (.tail _ (less inside)), inv.passes, inv.gone⟩

theorem afterError_subset (write : Write) (rest : List Write) : write.afterError rest ⊆ rest := by
  cases write with
  | prune seen => exact Subset.refl _
  | make | revise | scale => exact nil_subset _

section

variable (inv : Invariant hash deploy state)

include inv

theorem Invariant.withPods {pods : List Value} (became : ∀ pod ∈ pods, ∃ before ∈ state.pods,
      pod["metadata"]["ownerReferences"] = before["metadata"]["ownerReferences"] ∧
        (hasEnded before = true → hasEnded pod = true)) :
    Invariant hash deploy { state with pods } := by
  refine ⟨inv.sets, inv.rollouts, inv.passes,
    fun runs => ⟨(inv.gone runs).1, ?_, (inv.gone runs).2.2⟩⟩
  intro pod member isOld
  have ⟨before, present, owners, ended⟩ := became pod member
  have ⟨entry, recorded, older, owned⟩ := isOld
  refine ended ((inv.gone runs).2.1 before present ⟨entry, recorded, older, ?_⟩)
  rwa [ownedBy, ownerRefs, ← owners]

theorem Invariant.withPasses {passes : List SetPass}
    (became : ∀ pass ∈ passes, ∃ before ∈ state.passes,
      pass.rs = before.rs ∧ pass.creates ≤ before.creates) :
    Invariant hash deploy { state with passes } := by
  have before : NewRuns hash deploy { state with passes } → NewRuns hash deploy state := by
    rintro (running | ⟨pass, member, named, positive⟩)
    · exact .inl running
    · have ⟨before, present, same, less⟩ := became pass member
      exact .inr ⟨before, present, same ▸ named, by omega⟩
  refine ⟨inv.sets, inv.rollouts, fun pass member => ?_, fun runs =>
    ⟨(inv.gone (before runs)).1, (inv.gone (before runs)).2.1, fun pass member isOld => ?_⟩⟩
  · obtain ⟨before, present, same, -⟩ := became pass member
    rw [same]
    exact inv.passes before present
  · have ⟨earlier, present, same, less⟩ := became pass member
    have none := (inv.gone (before runs)).2.2 earlier present (same ▸ isOld)
    omega

end

theorem ownedBy_buildPod {suffix uid : String}
    (owned : ownedBy (buildPod rs suffix) uid = true) : uidOf rs = uid := by
  have refs : ownerRefs (buildPod rs suffix) = [ownerReference "apps/v1" "ReplicaSet" rs] := rfl
  simpa [ownedBy, refs] using owned

theorem desired_of_creates {createAllowed : Bool} {view : List Value}
    {pass : ReplicaSet.Pass} (ran : reconcileReplicaset createAllowed rs view = some pass)
    (positive : 0 < pass.creates) : 0 < desired rs := by
  unfold reconcileReplicaset at ran
  split_ifs at ran
  cases ran
  dsimp only at positive
  split_ifs at positive with few
  · omega
  · omega

theorem Invariant.sync (inv : Invariant hash deploy state) {name : String} {rs : Version Value}
    (current : state.sets.current name = some rs) {pass : SetPass} (isOf : pass.rs = rs.object)
    (told : 0 < pass.creates → 0 < desired rs.object) :
    Invariant hash deploy { state with passes := state.passes ++ [pass] } := by
  have recorded := inv.sets.sound.stored name rs current
  have named := (inv.sets.kept _ recorded).named
  have before : NewRuns hash deploy { state with passes := state.passes ++ [pass] } →
      NewRuns hash deploy state := by
    rintro (running | ⟨other, member, isNew, positive⟩)
    · exact .inl running
    · rcases mem_append.mp member with present | added
      · exact .inr ⟨other, present, isNew, positive⟩
      · obtain rfl := mem_singleton.mp added
        rw [isOf, named] at isNew
        exact .inl ⟨rs, isNew ▸ current, told positive⟩
  refine ⟨inv.sets, inv.rollouts, forall_mem_concat inv.passes ?_, fun runs =>
    ⟨(inv.gone (before runs)).1, (inv.gone (before runs)).2.1,
      forall_mem_concat (inv.gone (before runs)).2.2 fun isOld => ?_⟩⟩
  · rw [isOf, named]
    exact ⟨rs.number, recorded⟩
  · rw [isOf, named] at isOld
    have idle := (inv.gone (before runs)).1 name rs current isOld
    by_contra nonzero
    omega

theorem marked_status (time : String) (pod : Value) :
    (marked time pod)["metadata"]["ownerReferences"] = pod["metadata"]["ownerReferences"] ∧
      hasEnded (marked time pod) = hasEnded pod := by
  have ⟨owners, status⟩ := marked_reads time pod
  exact ⟨owners, by rw [hasEnded, status, hasEnded]⟩

theorem Invariant.create (inv : Invariant hash deploy state) {index creates : Nat}
    (running : state.passes[index]? = some ⟨rs, [], creates + 1⟩) (suffix : String) (lands : Bool) :
    Invariant hash deploy { state with
      pods := if lands then state.pods ++ [buildPod rs suffix] else state.pods
      passes := state.passes.set index ⟨rs, [], creates⟩ } := by
  have present := mem_of_getElem? running
  have fewer : Invariant hash deploy
      { state with passes := state.passes.set index ⟨rs, [], creates⟩ } :=
    inv.withPasses (forall_mem_set (fun pass old => ⟨pass, old, rfl, le_rfl⟩)
      ⟨_, present, rfl, Nat.le_succ _⟩)
  cases lands with
  | false => exact fewer
  | true =>
    refine { fewer with gone := fun runs => ⟨(fewer.gone runs).1, ?_, (fewer.gone runs).2.2⟩ }
    refine forall_mem_concat (fewer.gone runs).2.1 fun isOld => ?_
    -- the pass has a Pod to make, so where the new ReplicaSet runs it is the new one's
    have before : NewRuns hash deploy state := by
      rcases runs with running | ⟨pass, member, named, positive⟩
      · exact .inl running
      · rcases mem_or_eq_of_mem_set member with old | rfl
        · exact .inr ⟨pass, old, named, positive⟩
        · exact .inr ⟨_, present, named, Nat.succ_pos _⟩
    have isNew : nameOf rs = currentName hash deploy := by
      by_contra older
      have none := (inv.gone before).2.2 _ present older
      cases none
    have ⟨number, recorded⟩ := inv.passes _ present
    have ⟨entry, past, older, owned⟩ := isOld
    have same := inv.sets.uids entry past _ recorded (ownedBy_buildPod owned).symm
    exact absurd (same.trans isNew) older

theorem step_invariant (recreate : (strategy deploy (desiredReplicas deploy)).2.2 = true)
    {action : Action} {after : State} (inv : Invariant hash deploy state)
    (allowed : Permitted hash deploy state action ∧ Waits hash deploy state action)
    (taken : step hash deploy state action = some after) : Invariant hash deploy after := by
  have ⟨permitted, waits⟩ := allowed
  cases action with
  | reconcile view =>
    cases taken
    refine ⟨inv.sets, forall_mem_concat inv.rollouts fun write inside => ?_, inv.passes, inv.gone⟩
    exact (writes_decided recreate write inside).pending inv.sets permitted waits
  | write index uid outcome =>
    simp only [step] at taken
    split at taken
    · next write rest running =>
      have next : state.rollouts[index]?.bind head? = some write := by rw [running]; rfl
      have pending := inv.rollouts _ (mem_of_getElem? running) write mem_cons_self
      split at taken
      · next sets landed =>
        cases taken
        exact (inv.land pending permitted (waits (by decide) write next) landed).trim running
          (Subset.refl _)
      · next sets landed =>
        cases taken
        exact (inv.land pending permitted (waits (by decide) write next) landed).trim running
          (afterError_subset write rest)
      · cases taken
        exact inv.trim running (afterError_subset write rest)
    · cases taken
  | sync name createAllowed view =>
    simp only [step] at taken
    split at taken
    · next rs current =>
      split at taken
      · next pass ran =>
        cases taken
        exact inv.sync current rfl (desired_of_creates ran)
      · cases taken
        exact inv
    · cases taken
  | delete index time lands =>
    simp only [step] at taken
    split at taken
    · next rs pod rest creates running =>
      cases taken
      have fewer : Invariant hash deploy
          { state with passes := state.passes.set index ⟨rs, rest, creates⟩ } :=
        inv.withPasses (forall_mem_set (fun pass old => ⟨pass, old, rfl, le_rfl⟩)
          ⟨_, mem_of_getElem? running, rfl, le_rfl⟩)
      cases lands with
      | false => exact fewer
      | true =>
        refine fewer.withPods fun changed member => ?_
        obtain ⟨stored, present, rfl⟩ := mem_map.mp member
        have ⟨owners, ended⟩ := marked_status time stored
        refine ⟨stored, present, ?_⟩
        split_ifs
        · exact ⟨owners, ended.trans⟩
        · exact ⟨rfl, id⟩
    · cases taken
  | create index suffix lands =>
    simp only [step] at taken
    split at taken
    · next rs creates running =>
      cases taken
      exact inv.create running suffix lands
    · cases taken
  | touch name object =>
    obtain ⟨stored, current, rfl⟩ := map_eq_some_iff.mp taken
    have keeps : Keeps stored.object object := permitted stored current
    have counted := (inv.sets.kept _ (inv.sets.sound.stored _ _ current)).counted
    refine inv.put current (keeps.rewrites counted) fun _ positive => .inl ?_
    rwa [desired, keeps.2.2.2] at positive
  | change pod after =>
    cases taken
    refine inv.withPods fun changed member => ?_
    obtain ⟨stored, present, rfl⟩ := mem_map.mp member
    split_ifs with same
    · exact ⟨pod, same ▸ present, permitted⟩
    · exact ⟨stored, present, rfl, id⟩
  | gone pod =>
    cases taken
    exact inv.withPods fun left member => ⟨left, mem_of_mem_filter member, rfl, id⟩

end

/-- The start of a rollout: nothing is under way, and the new ReplicaSet is not there or is told to
run nothing. -/
structure Starts (hash : Value → String) (deploy : Value) (state : State) : Prop where
  recreate : (strategy deploy (desiredReplicas deploy)).2.2 = true
  sets : SetsSound hash deploy state.sets
  rollouts : state.rollouts = []
  passes : state.passes = []
  idle : ∀ stored, state.sets.current (currentName hash deploy) = some stored →
    ReplicaSet.desired stored.object = 0

theorem Starts.invariant {state : State} (starts : Starts hash deploy state) :
    Invariant hash deploy state := by
  refine ⟨starts.sets, ?_, ?_, ?_⟩
  · rw [starts.rollouts]
    simp
  · rw [starts.passes]
    simp
  · rintro (⟨stored, current, positive⟩ | ⟨pass, member, -⟩)
    · rw [starts.idle stored current] at positive
      cases positive
    · rw [starts.passes] at member
      cases member

theorem recreate_runs_one_version {start state after : State} (starts : Starts hash deploy start)
    (reached : Transition.Reaches (step hash deploy)
      (fun state action => Permitted hash deploy state action ∧ Waits hash deploy state action)
      start state)
    {index : Nat} {suffix : String}
    (taken : step hash deploy state (.create index suffix true) = some after)
    {pass : SetPass} (running : state.passes[index]? = some pass)
    (isNew : nameOf pass.rs = currentName hash deploy) :
    ∀ pod ∈ state.pods, OfOld hash deploy state.sets pod → hasEnded pod = true := by
  have inv : Invariant hash deploy state := reached.invariant starts.invariant
    fun _ _ _ inv allowed taken => step_invariant starts.recreate inv allowed taken
  have positive : 0 < pass.creates := by
    simp only [step] at taken
    split at taken
    · next rs creates found =>
      cases running.symm.trans found
      exact Nat.succ_pos _
    · cases taken
  exact (inv.gone (.inr ⟨pass, mem_of_getElem? running, isNew, positive⟩)).2.1

def webHash (_ : Value) : String := "b"

/-- A Deployment `web` that wants one replica under `Recreate`. -/
def web : Value :=
  .object [("metadata", .object [("name", .string "web"), ("uid", .string "d")]),
    ("spec", .object
      [("replicas", .number 1), ("strategy", .object [("type", .string "Recreate")])])]

def webSet (name uid : String) (replicas : Nat) : Value :=
  .object [("metadata", .object [("name", .string name), ("uid", .string uid),
      ("ownerReferences", .array [ownerReference "apps/v1" "Deployment" web])]),
    ("spec", .object [("replicas", .number replicas)])]

def webPod : Value := buildPod (webSet "web-a" "1" 1) "p"

/-- Its template has just changed: a Pod of the older ReplicaSet runs. -/
def webStart : State :=
  ⟨(Versions.empty.write "web-a" (webSet "web-a" "1" 1)).write "web-b" (webSet "web-b" "2" 0),
    [webPod], [], []⟩

theorem webStart_starts : Starts webHash web webStart where
  recreate := by decide +kernel
  sets := {
    sound := (Versions.sound_empty.write _ _).write _ _
    kept := by
      have both : ∀ entry ∈ webStart.sets.past, nameOf entry.2.object = entry.1 ∧
          ownedBy entry.2.object (uidOf web) = true ∧
          (count? entry.2.object["spec"]["replicas"]).isSome = true := by decide +kernel
      exact fun entry member =>
        ⟨(both entry member).1, (both entry member).2.1, (both entry member).2.2⟩
    uids := by decide +kernel
    idle := (Versions.lasting_empty.write_fresh (by decide +kernel)).write_fresh
      (by decide +kernel) }
  rollouts := rfl
  passes := rfl
  idle := by
    intro stored current
    cases current
    decide +kernel

/-- The older ReplicaSet is told to run nothing and deletes its Pod. -/
def scalesDown : List Action :=
  [.reconcile [⟨1, webSet "web-a" "1" 1⟩, ⟨2, webSet "web-b" "2" 0⟩], .write 0 "3" .served,
    .sync "web-a" true [webPod], .delete 0 "now" true]

/-- The new one is told to run the Pod and sets out to make it. -/
def scalesUp : List Action :=
  [.reconcile [⟨3, webSet "web-a" "1" 0⟩, ⟨2, webSet "web-b" "2" 0⟩], .write 1 "3" .served,
    .sync "web-b" true []]

/-- The second pass is the new ReplicaSet's, and it has a Pod to make. -/
def makesNew (state : State) : Bool :=
  (step webHash web state (.create 1 "x" true)).isSome &&
    state.passes[1]?.any (nameOf ·.rs = currentName webHash web)

theorem recreate_runs_one_version_after_removal :
    ∃ state, Transition.Reaches (step webHash web)
        (fun state action => Permitted webHash web state action ∧ Waits webHash web state action)
        webStart state ∧
      makesNew state = true ∧
      ∀ pod ∈ state.pods, OfOld webHash web state.sets pod → hasEnded pod = true := by
  refine Transition.exists_reaches_of (scalesDown ++ [.gone (marked "now" webPod)] ++ scalesUp)
    makesNew (by decide +kernel) fun state reached makes => ?_
  have ⟨creates, isNew⟩ := Bool.and_eq_true_iff.mp makes
  have ⟨after, taken⟩ := isSome_iff_exists.mp creates
  have ⟨pass, running, named⟩ := (Option.any_eq_true _ _).mp isNew
  exact ⟨makes,
    recreate_runs_one_version webStart_starts reached taken running (of_decide_eq_true named)⟩

theorem recreate_runs_two_versions :
    Starts webHash web webStart ∧
    ∃ state, Transition.Reaches (step webHash web) (Permitted webHash web) webStart state ∧
      (makesNew state &&
        state.pods.any fun pod => decide (OfOld webHash web state.sets pod) && !hasEnded pod) =
          true :=
  ⟨webStart_starts, Transition.exists_reaches (scalesDown ++ scalesUp) (by decide +kernel)⟩

end Rustkube.Recreate
