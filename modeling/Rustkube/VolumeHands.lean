import Rustkube.VolumeOwnership

/- The uid that a volume carries, over a run of the binder. -/
namespace Rustkube.Volumes

open Option Transition Versions Json Controllers

variable {quantities : Quantities}

/-- The uid that a volume carries lasts, and comes with a name. -/
structure World.Marked (world : World) : Prop where
  lasting : Versions.Lasting uidMark world.volumes
  wellFormed : ∀ entry ∈ world.volumes.past, WellFormed entry.2.object

/-- No pass picks a volume that carries the uid of another claim, and no volume is made with a uid
and no name. -/
def Careful (quantities : Quantities) (state : BinderPool) (action : Action) : Prop :=
  Permitted state action ∧
    match action with
    | .work (.arrive pass _) => (pass.opening quantities).careful = true
    | .event (.createVolume _ object) => WellFormed object
    | _ => True

instance (state : BinderPool) : (action : Action) → Decidable (Careful quantities state action)
  | .work (.arrive _ _) | .work (.call _ _) | .work (.turn _ _) =>
    inferInstanceAs (Decidable (_ ∧ _))
  | .event (.createClaim _ _) | .event (.touchClaim _ _) | .event (.deleteClaim _)
  | .event (.createVolume _ _) | .event (.touchVolume _ _) | .event (.deleteVolume _) =>
    inferInstanceAs (Decidable (_ ∧ _))

variable {world after : World} {notes : Notes}

theorem World.Marked.writeVolume (marked : world.Marked) {name : String} {body : Value}
    (lasting : Lasting uidMark (world.volumes.write name body)) (wellFormed : WellFormed body) :
    Marked { world with volumes := world.volumes.write name body } where
  lasting := lasting
  wellFormed := List.forall_mem_cons.mpr ⟨wellFormed, marked.wellFormed⟩

theorem landed_marked (sound : world.Sound) (marked : world.Marked) (backed : Backed world notes)
    (careful : notes.careful = true) {op : Op} (allowed : allows notes op)
    (landed : Landed world op after) : after.Marked := by
  cases landed_wrote sound backed allowed landed with
  | volume found isNamed names uid free untaken =>
    refine marked.writeVolume (marked.lasting.write found fun was isMarked => ?_) (.inr ?_)
    · have ⟨given, same⟩ := uidMark_eq_some.mp isMarked
      rcases untaken careful with unmarked | own
      · exact absurd (same.symm.trans unmarked) given
      · exact uidMark_eq_some.mpr ⟨given, uid.trans (own.symm.trans same)⟩
    · rw [names.2]
      exact backed.named.1
  | claim => exact ⟨marked.lasting, marked.wellFormed⟩

theorem event_marked (marked : world.Marked) {event : Event} (foreign : event.Foreign world)
    (wellFormed : ∀ name object, event = .createVolume name object → WellFormed object)
    (sound : world.Sound) (landed : event.land world = some after) : after.Marked := by
  cases event with
  | createClaim claim object =>
    dsimp only [Event.land] at landed
    split_ifs at landed
    cases landed
    exact ⟨marked.lasting, marked.wellFormed⟩
  | touchClaim | deleteClaim =>
    obtain ⟨stored, -, rfl⟩ := map_eq_some_iff.mp landed
    exact ⟨marked.lasting, marked.wellFormed⟩
  | createVolume name object =>
    dsimp only [Event.land] at landed
    split_ifs at landed
    cases landed
    exact marked.writeVolume (marked.lasting.write_fresh foreign.2) (wellFormed name object rfl)
  | touchVolume name object =>
    obtain ⟨stored, found, rfl⟩ := map_eq_some_iff.mp landed
    have same := foreign.2 stored found
    refine marked.writeVolume (marked.lasting.write found fun was isMarked =>
      (marks_of_claimRef same).2.trans isMarked) ?_
    have before := marked.wellFormed _ (sound.volumes.stored name stored found)
    unfold WellFormed refUid refName at before ⊢
    rwa [same]
  | deleteVolume name =>
    obtain ⟨stored, -, rfl⟩ := map_eq_some_iff.mp landed
    exact ⟨marked.lasting.remove name, marked.wellFormed⟩

theorem note_careful (marked : world.Marked) (sound : world.Sound) (careful : notes.careful = true)
    (op : Op) (outcome : Outcome) :
    (note notes op (perform world op outcome).1).careful = true := by
  cases op with
  | getVolume name =>
    cases given : (perform world (.getVolume name) outcome).1 with
    | none => exact careful
    | some found =>
      cases found with
      | none => exact careful
      | some pv =>
        have wellFormed : WellFormed pv.object :=
          marked.wellFormed (name, pv) (sound.volumes.stored name pv (getVolume_answer given))
        change (notes.careful && decide (WellFormed pv.object)) = true
        rw [careful, decide_eq_true wellFormed, Bool.and_self]
  | putVolume name seen body =>
    cases (perform world (.putVolume name seen body) outcome).1 with
    | false | true => exact careful
  | patchClaim claim seen patch =>
    cases (perform world (.patchClaim claim seen patch) outcome).1 with
    | none | some => exact careful
  | putStatus claim seen status => exact careful

/-- What holds besides, where the passes are careful. -/
structure CarefulInv (quantities : Quantities) (state : BinderPool) : Prop where
  base : Inv quantities state
  marked : state.store.Marked
  careful : ∀ notes ∈ state.notes, notes.careful = true

theorem careful_step {before after : BinderPool} {action : Action}
    (inv : CarefulInv quantities before) (permitted : Careful quantities before action)
    (taken : step quantities before action = some after) : CarefulInv quantities after := by
  have next := (inv_step inv.base permitted.1 taken).1
  cases (step_spec inv.base permitted.1 taken).2 with
  | event landed notes =>
    refine ⟨next, event_marked inv.marked permitted.1 (fun name object same => ?_) inv.base.sound
      landed, fun other member => inv.careful other (notes ▸ member)⟩
    subst same
    exact permitted.2
  | arrived store notes =>
    refine ⟨next, store ▸ inv.marked, ?_⟩
    rw [notes]
    exact List.forall_mem_concat inv.careful permitted.2
  | @called index outcome notes op member allowed store noted =>
    have careful := inv.careful notes member
    refine ⟨next, ?_, ?_⟩
    · rw [store]
      rcases perform_world before.store op outcome with same | landed
      · rw [same]
        exact inv.marked
      · exact landed_marked inv.base.sound inv.marked (inv.base.backed notes member) careful
          allowed landed
    · rw [noted]
      exact List.forall_mem_set inv.careful
        (note_careful inv.marked inv.base.sound careful op outcome)

/-- A worker gives a claim the name of a volume only if the volume carries its uid. -/
theorem given_own (sound : world.Sound) (marked : world.Marked) (backed : Backed world notes)
    {op : Op}
    (allowed : allows notes op) (landed : Landed world op after) {claim : ClaimKey}
    {pvc pvc' pv : Seen}
    (found : world.claims.current claim = some pvc) (given : after.claims.current claim = some pvc')
    (changed : volumeNameOf pvc'.object ≠ volumeNameOf pvc.object)
    (stored : world.volumes.current (volumeNameOf pvc'.object) = some pv) :
    refUid pv.object = uidOf pvc'.object := by
  have same : after.claims.current claim = world.claims.current claim → False := fun same =>
    changed (congrArg (fun version => volumeNameOf version.object)
      (some.inj (given.symm.trans (same.trans found))))
  cases landed_wrote sound backed allowed landed with
  | volume => exact absurd rfl same
  | @claim held body heldAt uid named =>
    by_cases isTarget : claim = notes.claim
    · subst isTarget
      obtain rfl := some.inj (write_current_self.symm.trans given)
      obtain rfl : held = pvc := some.inj (heldAt.symm.trans found)
      have ⟨own, recorded, ownUid⟩ := backed.owns (named.resolve_left changed)
      have kept := marked.lasting.kept _ own notes.uid recorded
        (uidMark_eq_some.mpr ⟨backed.named.2, ownUid⟩) pv stored
      rw [(uidMark_eq_some.mp kept).2]
      exact uid.symm
    · exact absurd (write_current_of_ne isTarget) same

/-- A volume does not change hands: the uid it carries stays, and a worker gives its name only to
the claim of that uid. -/
theorem volume_keeps_hands (quantities : Quantities) {world : World} (sound : world.Sound)
    (marked : world.Marked) {before after : BinderPool} {action : Action}
    (reached : Transition.Reaches (step quantities) (Careful quantities) (fresh world) before)
    (permitted : Careful quantities before action)
    (taken : step quantities before action = some after) :
    (∀ name pv pv', before.store.volumes.current name = some pv →
      after.store.volumes.current name = some pv' → refUid pv.object ≠ "" →
      refUid pv'.object = refUid pv.object) ∧
    (∀ index outcome, action = .work (.call index outcome) → ∀ claim pvc pvc' pv,
      before.store.claims.current claim = some pvc → after.store.claims.current claim = some pvc' →
      volumeNameOf pvc'.object ≠ volumeNameOf pvc.object →
      before.store.volumes.current (volumeNameOf pvc'.object) = some pv →
      refUid pv.object ≠ "" → refUid pv.object = uidOf pvc'.object) := by
  have initial : CarefulInv quantities (fresh world) := ⟨inv_fresh sound, marked, nofun⟩
  have inv := reached.invariant initial fun _ _ _ inv permitted taken =>
    careful_step inv permitted taken
  have grows := (inv_step inv.base permitted.1 taken).2
  constructor
  · intro name pv pv' found left given
    have recorded := grows.volumes (inv.base.sound.volumes.stored name pv found)
    have kept := (careful_step inv permitted taken).marked.lasting.kept name pv _ recorded
      (uidMark_eq_some.mpr ⟨given, rfl⟩) pv' left
    exact (uidMark_eq_some.mp kept).2
  · rintro index outcome rfl claim pvc pvc' pv found given changed stored -
    cases (step_spec inv.base permitted.1 taken).2 with
    | called member allowed store noted =>
      rw [store] at given
      rcases perform_world before.store _ outcome with same | landed
      · rw [same] at given
        exact absurd (congrArg (fun version => volumeNameOf version.object)
          (some.inj (given.symm.trans found))) changed
      · exact given_own inv.base.sound inv.marked (inv.base.backed _ member) allowed landed found
          given changed stored

theorem marked_emptyWorld : emptyWorld.Marked := ⟨lasting_empty, fun _ member => by cases member⟩

/-- The volume as claim `a` leaves it. -/
def takenVolume : Value := (boundVolume plainVolume ("ns", "a") "1").getD .null

/-- Claim `a` takes the volume, is deleted, and is made again with another uid. -/
def madeAgain (spec : List (String × Value)) (volumes : List Seen) : List Action :=
  [.event (.createVolume "v" plainVolume), .event
    (.createClaim ("ns", "a") (claimNamed "a" "1" [])),
    .work (.arrive (passOf 1 (claimNamed "a" "1" []) [⟨1, plainVolume⟩]) ()), .work
      (.call 0 .served),
    .work (.call 0 .served), .work (.call 0 .served), .event (.deleteClaim ("ns", "a")),
    .event (.createClaim ("ns", "a") (claimNamed "a" "2" spec)),
    .work (.arrive (passOf 4 (claimNamed "a" "2" spec) volumes) ())]

/-- The uids that the volume carries before and after one more call of the second pass. -/
def uidsAround (quantities : Quantities) (before after : String) (state : BinderPool) : Bool :=
  (state.store.volumes.current "v").any fun pv => refUid pv.object = before &&
    (step quantities state (.work (.call 1 .served))).any fun next =>
      (next.store.volumes.current "v").any fun pv' => refUid pv'.object = after

/-- A claim that is made again with the name of the volume picks none: it is `Lost`. -/
theorem volume_keeps_hands_made_again :
    ∃ before after pv pv',
      Transition.Reaches (step noQuantities) (Careful noQuantities) (fresh emptyWorld) before ∧
      step noQuantities before (.work (.call 1 .served)) = some after ∧
      before.store.volumes.current "v" = some pv ∧ refUid pv.object = "1" ∧
      after.store.volumes.current "v" = some pv' ∧ refUid pv'.object = "1" := by
  simp only [exists_and_left]
  refine exists_reaches_of
    (madeAgain [("volumeName", .string "v")] [⟨2, takenVolume⟩] ++ [.work (.call 1 .served)])
    (uidsAround noQuantities "1" "1") (by decide +kernel) fun before reached around => ?_
  have ⟨pv, found, around⟩ := (any_eq_true _ _).mp around
  have ⟨isFirst, around⟩ := Bool.and_eq_true_iff.mp around
  have ⟨after, taken, around⟩ := (any_eq_true _ _).mp around
  obtain ⟨pv', left, -⟩ := (any_eq_true _ _).mp around
  have first : refUid pv.object = "1" := of_decide_eq_true isFirst
  have permitted : Careful noQuantities before (.work (.call 1 .served)) := ⟨trivial, trivial⟩
  have kept := (volume_keeps_hands noQuantities sound_emptyWorld marked_emptyWorld reached permitted
    taken).1 "v" pv pv' found left (by rw [first]; decide)
  exact ⟨after, taken, pv, found, first, pv', left, kept.trans first⟩

/-- A claim that is made again and names no volume picks the one that names it, and takes it
over. -/
theorem volume_changes_hands :
    ∃ before after pv pv',
      Transition.Reaches (step noQuantities) Permitted (fresh emptyWorld) before ∧
      step noQuantities before (.work (.call 1 .served)) = some after ∧
      before.store.volumes.current "v" = some pv ∧ refUid pv.object = "1" ∧
      after.store.volumes.current "v" = some pv' ∧ refUid pv'.object = "2" := by
  simp only [exists_and_left]
  refine exists_reaches_of (madeAgain [] [⟨2, takenVolume⟩]) (uidsAround noQuantities "1" "2")
    (by decide +kernel) fun before reached around => ?_
  have ⟨pv, found, around⟩ := (any_eq_true _ _).mp around
  have ⟨first, around⟩ := Bool.and_eq_true_iff.mp around
  have ⟨after, taken, around⟩ := (any_eq_true _ _).mp around
  have ⟨pv', left, second⟩ := (any_eq_true _ _).mp around
  exact ⟨after, taken, pv, found, of_decide_eq_true first, pv', left, of_decide_eq_true second⟩

end Rustkube.Volumes
