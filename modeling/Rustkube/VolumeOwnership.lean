import Rustkube.VolumeProtocol

/- The binder's workers among the writes of everyone else. -/
namespace Rustkube.Volumes

open List Option Versions Json Controllers

/-- What others do: they make, change and delete claims and volumes. -/
inductive Event where
  | createClaim (claim : ClaimKey) (object : Value)
  | touchClaim (claim : ClaimKey) (object : Value)
  | deleteClaim (claim : ClaimKey)
  | createVolume (name : String) (object : Value)
  | touchVolume (name : String) (object : Value)
  | deleteVolume (name : String)
deriving DecidableEq

def Event.land (world : World) : Event → Option World
  | .createClaim claim object =>
    if world.claims.current claim = none then
      some { world with claims := world.claims.write claim object }
    else none
  | .touchClaim claim object =>
    (world.claims.current claim).map fun _ =>
      { world with claims := world.claims.write claim object }
  | .deleteClaim claim =>
    (world.claims.current claim).map fun _ => { world with claims := world.claims.remove claim }
  | .createVolume name object =>
    if world.volumes.current name = none then
      some { world with volumes := world.volumes.write name object }
    else none
  | .touchVolume name object =>
    (world.volumes.current name).map fun _ =>
      { world with volumes := world.volumes.write name object }
  | .deleteVolume name =>
    (world.volumes.current name).map fun _ => { world with volumes := world.volumes.remove name }

/-- A write that leaves to the binder what is the binder's. -/
def KeepsClaim (stored object : Value) : Prop :=
  uidOf object = uidOf stored ∧ volumeNameOf object = volumeNameOf stored ∧
    object["status"] = stored["status"]

instance (stored object : Value) : Decidable (KeepsClaim stored object) :=
  inferInstanceAs (Decidable (_ ∧ _))

/-- Only the binder writes `claimRef` and the status of a claim. A claim is made with any
`volumeName`, and a volume with any `claimRef`, under a name that no volume had before. -/
def Event.Foreign (world : World) : Event → Prop
  | .createClaim claim object => claim.2 ≠ "" ∧ uidOf object ≠ "" ∧ phaseOf object ≠ "Bound"
  | .touchClaim claim object =>
    ∀ stored ∈ world.claims.current claim, KeepsClaim stored.object object
  | .deleteClaim _ => True
  | .createVolume name object => nameOf object = name ∧ world.volumes.Fresh name
  | .touchVolume name object => nameOf object = name ∧ ∀ stored ∈ world.volumes.current name,
      object["spec"]["claimRef"] = stored.object["spec"]["claimRef"]
  | .deleteVolume _ => True

instance (world : World) (event : Event) : Decidable (event.Foreign world) := by
  cases event <;> unfold Event.Foreign <;> infer_instance

abbrev BinderPool : Type := Pool World Pass Unit Notes Op Answer

/-- A worker's step, or somebody else's. -/
inductive Action where
  | work (action : PoolAction Pass Unit Outcome)
  | event (event : Event)

section

variable (quantities : Quantities)

def step (state : BinderPool) : Action → Option BinderPool
  | .work action => (binder quantities).step state action
  | .event event => (event.land state.store).map fun store => { state with store }

/-- A view is a version that was stored once: the informers may be behind, each on its own. -/
def Pass.Viewed (world : World) (pass : Pass) : Prop :=
  (keyOf pass.claim.object, pass.claim) ∈ world.claims.past ∧
    ∀ pv ∈ pass.volumes, (nameOf pv.object, pv) ∈ world.volumes.past

instance (world : World) (pass : Pass) : Decidable (pass.Viewed world) :=
  inferInstanceAs (Decidable (_ ∧ _))

/-- Nothing follows from a pass that has come to its end. -/
def Permitted (state : BinderPool) : Action → Prop
  | .work (.arrive pass _) => pass.Viewed state.store
  | .work (.call _ _) => True
  | .work (.turn _ _) => False
  | .event event => event.Foreign state.store

instance (state : BinderPool) (action : Action) : Decidable (Permitted state action) := by
  cases action with
  | work action => cases action <;> unfold Permitted <;> infer_instance
  | event event => unfold Permitted; infer_instance

end

/-- The claim a volume is reserved for. -/
def refMark (pv : Value) : Option ClaimKey :=
  if refName pv = "" then none else some (refNs pv, refName pv)

/-- The uid a volume carries. -/
def uidMark (pv : Value) : Option String := if refUid pv = "" then none else some (refUid pv)

variable {pv stored : Value} {claim : ClaimKey}

theorem refMark_of_names (named : claim.2 ≠ "") (names : Names pv claim) :
    refMark pv = some claim := by
  unfold refMark
  rw [names.1, names.2, if_neg named]

theorem uidMark_eq_some {uid : String} : uidMark pv = some uid ↔ uid ≠ "" ∧ refUid pv = uid := by
  unfold uidMark
  split_ifs with empty
  · exact ⟨nofun, fun ⟨given, same⟩ => absurd empty (same ▸ given)⟩
  · simp only [some.injEq]
    exact ⟨fun same => ⟨same ▸ empty, same⟩, fun both => both.2⟩

theorem marks_of_claimRef (same : pv["spec"]["claimRef"] = stored["spec"]["claimRef"]) :
    refMark pv = refMark stored ∧ uidMark pv = uidMark stored := by
  unfold refMark uidMark refName refNs refUid
  rw [same]
  exact ⟨rfl, rfl⟩

section

/-- What holds of the store, whatever the workers do. -/
structure World.Sound (world : World) : Prop where
  volumes : world.volumes.Sound
  claims : world.claims.Sound
  names : ∀ entry ∈ world.volumes.past, nameOf entry.2.object = entry.1
  named : ∀ entry ∈ world.claims.past, entry.1.2 ≠ "" ∧ uidOf entry.2.object ≠ ""
  lasting : Versions.Lasting refMark world.volumes
  bound : ∀ claim pvc, world.claims.current claim = some pvc → phaseOf pvc.object = "Bound" →
    ∃ pv, (volumeNameOf pvc.object, pv) ∈ world.volumes.past ∧ Names pv.object claim

/-- What a pass has noted is on record. -/
structure Backed (world : World) (notes : Notes) : Prop where
  named : notes.claim.2 ≠ "" ∧ notes.uid ≠ ""
  views : ∀ view ∈ notes.views, (notes.claim, view) ∈ world.claims.past ∧
    uidOf view.object = notes.uid
  volumes : ∀ pv ∈ notes.volumes, (nameOf pv.object, pv) ∈ world.volumes.past
  reserved : ∀ name ∈ notes.reserved, ∃ pv, (name, pv) ∈ world.volumes.past ∧
    Names pv.object notes.claim ∧ refUid pv.object = notes.uid

/-- Records are kept. -/
structure World.Grows (world after : World) : Prop where
  volumes : world.volumes.past ⊆ after.volumes.past
  claims : world.claims.past ⊆ after.claims.past

theorem World.Grows.refl (world : World) : world.Grows world := ⟨Subset.refl _, Subset.refl _⟩

variable {world after : World} {notes : Notes} {name : String}

section

variable (backed : Backed world notes)

include backed

theorem Backed.grows (grows : world.Grows after) : Backed after notes where
  named := backed.named
  views view member := ⟨grows.claims (backed.views view member).1, (backed.views view member).2⟩
  volumes pv member := grows.volumes (backed.volumes pv member)
  reserved name member := by
    have ⟨pv, recorded, rest⟩ := backed.reserved name member
    exact ⟨pv, grows.volumes recorded, rest⟩

theorem Backed.holds (holds : notes.Holds name) :
    ∃ pv, (name, pv) ∈ world.volumes.past ∧ Names pv.object notes.claim := by
  rcases holds with reserved | ⟨pv, member, rfl, names⟩
  · obtain ⟨pv, recorded, names, -⟩ := backed.reserved name reserved
    exact ⟨pv, recorded, names⟩
  · exact ⟨pv, backed.volumes pv member, names⟩

theorem Backed.owns (owns : notes.Owns name) :
    ∃ pv, (name, pv) ∈ world.volumes.past ∧ refUid pv.object = notes.uid := by
  rcases owns with reserved | ⟨pv, member, rfl, -, uid⟩
  · obtain ⟨pv, recorded, -, uid⟩ := backed.reserved name reserved
    exact ⟨pv, recorded, uid⟩
  · exact ⟨pv, backed.volumes pv member, uid⟩

end

/-- An allowed write, on the version that the pass was shown. -/
inductive Wrote (world : World) (notes : Notes) : World → Prop
  | volume {name : String} {seen : Seen} {body : Value}
      (found : world.volumes.current name = some seen) (isNamed : nameOf body = name)
      (names : Names body notes.claim) (uid : refUid body = notes.uid)
      (free : refName seen.object = "" ∨ Names seen.object notes.claim)
      (untaken : notes.careful = true → Untaken seen.object notes.uid) :
      Wrote world notes { world with volumes := world.volumes.write name body }
  | claim {stored : Seen} {body : Value} (found : world.claims.current notes.claim = some stored)
      (uid : uidOf body = notes.uid)
      (named : volumeNameOf body = volumeNameOf stored.object ∨ notes.Owns (volumeNameOf body))
      (bound : phaseOf body = "Bound" → phaseOf stored.object = "Bound" ∧
        volumeNameOf body = volumeNameOf stored.object ∨ notes.Holds (volumeNameOf body)) :
      Wrote world notes { world with claims := world.claims.write notes.claim body }

section

variable (sound : world.Sound) {body : Value}

include sound

theorem World.Sound.writeVolume (isNamed : nameOf body = name)
    (lasting : Lasting refMark (world.volumes.write name body)) :
    Sound { world with volumes := world.volumes.write name body } where
  volumes := sound.volumes.write name body
  claims := sound.claims
  names := forall_mem_cons.mpr ⟨isNamed, sound.names⟩
  named := sound.named
  lasting := lasting
  bound claim pvc found phase := by
    have ⟨pv, recorded, names⟩ := sound.bound claim pvc found phase
    exact ⟨pv, .tail _ recorded, names⟩

theorem World.Sound.removeVolume (name : String) :
    Sound { world with volumes := world.volumes.remove name } :=
  { sound with volumes := sound.volumes.remove name, lasting := sound.lasting.remove name }

theorem World.Sound.removeClaim (claim : ClaimKey) :
    Sound { world with claims := world.claims.remove claim } :=
  { sound with
    claims := sound.claims.remove claim
    bound := fun other pvc found => sound.bound other pvc (current_of_remove found) }

/-- A write of a claim: if it is `Bound`, its volume names it. -/
theorem World.Sound.writeClaim {claim : ClaimKey} (named : claim.2 ≠ "") (uid : uidOf body ≠ "")
    (bound : phaseOf body = "Bound" →
      ∃ pv, (volumeNameOf body, pv) ∈ world.volumes.past ∧ Names pv.object claim) :
    Sound { world with claims := world.claims.write claim body } where
  volumes := sound.volumes
  claims := sound.claims.write claim body
  names := sound.names
  named := forall_mem_cons.mpr ⟨⟨named, uid⟩, sound.named⟩
  lasting := sound.lasting
  bound other pvc found phase := by
    by_cases same : other = claim
    · subst same
      rw [write_current_self] at found
      cases found
      exact bound phase
    · rw [write_current_of_ne same] at found
      exact sound.bound other pvc found phase

end

variable (sound : world.Sound) {op : Op}

include sound

section

variable (backed : Backed world notes)

include backed

variable (allowed : allows notes op)

include allowed

theorem landed_wrote (landed : Landed world op after) : Wrote world notes after := by
  cases landed with
  | @putVolume name seen body volumes swapped =>
    obtain ⟨offered, isSeen, isNamed, names, uid, free, untaken⟩ := allowed
    obtain ⟨found, rfl⟩ := sound.volumes.swap_spec (isSeen ▸ backed.volumes seen offered) swapped
    exact .volume found isNamed names uid free untaken
  | @patchClaim claim seen stored patch body claims found applied swapped =>
    obtain ⟨rfl, shown, owns⟩ := allowed
    obtain ⟨current, rfl⟩ := sound.claims.swap_spec (backed.views seen shown).1 swapped
    obtain rfl : stored = seen := some.inj (found.symm.trans current)
    have ⟨status, uid, volumeName⟩ := apply_spec applied
    have phaseKept : phaseOf body = phaseOf stored.object := by
      unfold phaseOf
      rw [status]
    have named : volumeNameOf body = volumeNameOf stored.object ∨
        notes.Owns (volumeNameOf body) := by
      rw [volumeName]
      cases patch with
      | volume name => exact .inr (owns name rfl)
      | _ => exact .inl rfl
    exact .claim found (uid.trans (backed.views stored shown).2) named
      fun phase => named.imp (⟨phaseKept ▸ phase, ·⟩) Notes.Owns.holds
  | @putStatus claim seen stored status body claims found assigned swapped =>
    obtain ⟨rfl, shown, holds⟩ := allowed
    obtain ⟨current, rfl⟩ := sound.claims.swap_spec (backed.views seen shown).1 swapped
    obtain rfl : stored = seen := some.inj (found.symm.trans current)
    have uidKept : uidOf body = uidOf stored.object := by
      unfold uidOf
      rw [Value.assign_of_ne assigned (by decide)]
    have volumeKept : volumeNameOf body = volumeNameOf stored.object := by
      unfold volumeNameOf
      rw [Value.assign_of_ne assigned (by decide)]
    refine .claim found (uidKept.trans (backed.views stored shown).2) (.inl volumeKept) fun phase =>
      .inr ?_
    unfold phaseOf at phase
    rw [Value.assign_self assigned] at phase
    exact volumeKept ▸ holds phase

theorem landed_sound (landed : Landed world op after) : after.Sound ∧ world.Grows after := by
  cases landed_wrote sound backed allowed landed with
  | volume found isNamed names uid free untaken =>
    refine ⟨sound.writeVolume isNamed (sound.lasting.write found fun was marked => ?_),
      ⟨subset_cons_self .., Subset.refl _⟩⟩
    rw [refMark_of_names backed.named.1 names]
    rcases free with nameless | same
    · simp [refMark, nameless] at marked
    · rwa [refMark_of_names backed.named.1 same] at marked
  | claim found uid named bound =>
    refine ⟨sound.writeClaim backed.named.1 (uid ▸ backed.named.2) fun phase => ?_,
      ⟨Subset.refl _, subset_cons_self ..⟩⟩
    rcases bound phase with ⟨before, same⟩ | holds
    · exact same ▸ sound.bound _ _ found before
    · exact backed.holds holds

theorem perform_sound (outcome : Outcome) :
    (perform world op outcome).2.Sound ∧ world.Grows (perform world op outcome).2 := by
  rcases perform_world world op outcome with same | landed
  · rw [same]
    exact ⟨sound, .refl world⟩
  · exact landed_sound sound backed allowed landed

end

theorem perform_expected (op : Op) (outcome : Outcome) :
    expects notes op (perform world op outcome).1 := by
  cases op with
  | getVolume name =>
    intro pv given
    exact sound.names _ (sound.volumes.stored name pv (getVolume_answer given))
  | patchClaim claim seen patch =>
    intro bound given name isVolume
    obtain ⟨stored, body, -, applied, -, rfl⟩ := patchClaim_answer given
    have written := (apply_spec applied).2.2
    rwa [isVolume] at written
  | _ => trivial

theorem note_backed (backed : Backed world notes) (allowed : allows notes op) (outcome : Outcome) :
    Backed (perform world op outcome).2 (note notes op (perform world op outcome).1) := by
  have kept := backed.grows (perform_sound sound backed allowed outcome).2
  cases op with
  | getVolume name =>
    cases given : (perform world (.getVolume name) outcome).1 with
    | none => exact kept
    | some found =>
      cases found with
      | none => exact kept
      | some pv =>
        have stored := sound.volumes.stored name pv (getVolume_answer given)
        have isNamed : nameOf pv.object = name := sound.names _ stored
        exact ⟨kept.named, kept.views,
          forall_mem_cons.mpr ⟨isNamed.symm ▸ stored, kept.volumes⟩, kept.reserved⟩
  | putVolume name seen body =>
    cases given : (perform world (.putVolume name seen body) outcome).1 with
    | false => exact kept
    | true =>
      refine { kept with reserved := fun other member => ?_ }
      rcases mem_cons.mp member with rfl | old
      · obtain ⟨offered, isSeen, -, names, uid, -, -⟩ := allowed
        obtain ⟨-, written⟩ := sound.volumes.swap_spec (isSeen ▸ backed.volumes seen offered)
          (putVolume_answer given)
        refine ⟨world.volumes.next body, ?_, names, uid⟩
        rw [written]
        exact .head _
      · exact kept.reserved other old
  | patchClaim claim seen patch =>
    cases given : (perform world (.patchClaim claim seen patch) outcome).1 with
    | none => exact kept
    | some bound =>
      obtain ⟨rfl, shown, -⟩ := allowed
      obtain ⟨stored, body, found, applied, swapped, rfl⟩ := patchClaim_answer given
      have ⟨current, written⟩ := sound.claims.swap_spec (backed.views seen shown).1 swapped
      obtain rfl : stored = seen := some.inj (found.symm.trans current)
      refine ⟨kept.named, forall_mem_cons.mpr ⟨⟨?_, ?_⟩, kept.views⟩, kept.volumes, kept.reserved⟩
      · rw [written]
        exact .head _
      · exact (apply_spec applied).2.1.trans (backed.views stored shown).2
  | putStatus claim seen status => exact kept

theorem event_sound {event : Event} (foreign : event.Foreign world)
    (landed : event.land world = some after) : after.Sound ∧ world.Grows after := by
  cases event with
  | createClaim claim object =>
    dsimp only [Event.land] at landed
    split_ifs at landed
    cases landed
    have ⟨named, uid, unbound⟩ := foreign
    exact ⟨sound.writeClaim named uid fun phase => absurd phase unbound,
      ⟨Subset.refl _, subset_cons_self ..⟩⟩
  | touchClaim claim object =>
    obtain ⟨stored, found, rfl⟩ := map_eq_some_iff.mp landed
    have ⟨uid, volumeName, status⟩ := foreign stored found
    have ⟨named, hasUid⟩ := sound.named _ (sound.claims.stored claim stored found)
    refine ⟨sound.writeClaim named (uid ▸ hasUid) fun phase => ?_,
      ⟨Subset.refl _, subset_cons_self ..⟩⟩
    unfold phaseOf at phase
    rw [status] at phase
    rw [volumeName]
    exact sound.bound claim stored found phase
  | deleteClaim claim =>
    obtain ⟨stored, -, rfl⟩ := map_eq_some_iff.mp landed
    exact ⟨sound.removeClaim claim, ⟨Subset.refl _, Subset.refl _⟩⟩
  | createVolume name object =>
    dsimp only [Event.land] at landed
    split_ifs at landed
    cases landed
    exact ⟨sound.writeVolume foreign.1 (sound.lasting.write_fresh foreign.2),
      ⟨subset_cons_self .., Subset.refl _⟩⟩
  | touchVolume name object =>
    obtain ⟨stored, found, rfl⟩ := map_eq_some_iff.mp landed
    have same := marks_of_claimRef (foreign.2 stored found)
    exact ⟨sound.writeVolume foreign.1
      (sound.lasting.write found fun was marked => same.1.trans marked),
      ⟨subset_cons_self .., Subset.refl _⟩⟩
  | deleteVolume name =>
    obtain ⟨stored, -, rfl⟩ := map_eq_some_iff.mp landed
    exact ⟨sound.removeVolume name, ⟨Subset.refl _, Subset.refl _⟩⟩

end

variable {quantities : Quantities} {world : World} {action : Action}

/-- What holds of the workers and the store in every run. -/
structure Inv (quantities : Quantities) (state : BinderPool) : Prop where
  kept : (discipline quantities).Kept state
  sound : state.store.Sound
  backed : ∀ notes ∈ state.notes, Backed state.store notes

theorem opening_backed (sound : world.Sound) {pass : Pass} (viewed : pass.Viewed world) :
    Backed world (pass.opening quantities) where
  named := sound.named _ viewed.1
  views view member := by
    obtain rfl := mem_singleton.mp member
    exact ⟨viewed.1, rfl⟩
  volumes := viewed.2
  reserved _ member := by cases member

/-- What a step does to the store and to what the passes have noted. -/
inductive Stepped (quantities : Quantities) (before after : BinderPool) : Action → Prop
  | event {event : Event} (landed : event.land before.store = some after.store)
      (notes : after.notes = before.notes) : Stepped quantities before after (.event event)
  | arrived {pass : Pass} {setting : Unit} (store : after.store = before.store)
      (notes : after.notes = before.notes ++ [pass.opening quantities]) :
      Stepped quantities before after (.work (.arrive pass setting))
  | called {index : Nat} {outcome : Outcome} {notes : Notes} {op : Op}
    (member : notes ∈ before.notes)
      (allowed : allows notes op) (store : after.store = (perform before.store op outcome).2)
      (noted : after.notes =
        before.notes.set index (note notes op (perform before.store op outcome).1)) :
      Stepped quantities before after (.work (.call index outcome))

theorem step_spec {before after : BinderPool} (inv : Inv quantities before)
    (permitted : Permitted before action) (taken : step quantities before action = some after) :
    (discipline quantities).Kept after ∧ Stepped quantities before after action := by
  cases action with
  | event event =>
    obtain ⟨store, landed, rfl⟩ := map_eq_some_iff.mp taken
    exact ⟨inv.kept, .event landed rfl⟩
  | work action =>
    have meets : (binder quantities).Meets (discipline quantities).admitted before action := by
      cases action with
      | call index outcome =>
        exact fun _ notes op _ => @perform_expected _ notes inv.sound op outcome
      | _ => trivial
    have ⟨kept, moved⟩ := Machine.step_moved inv.kept meets taken
    refine ⟨kept, ?_⟩
    cases moved with
    | arrived store notes => exact .arrived store notes
    | called calls held allowed can store noted =>
      exact .called (mem_of_getElem? held) allowed store noted
    | turned => exact absurd permitted id

theorem inv_step {before after : BinderPool} (inv : Inv quantities before)
    (permitted : Permitted before action) (taken : step quantities before action = some after) :
    Inv quantities after ∧ before.store.Grows after.store := by
  have ⟨kept, stepped⟩ := step_spec inv permitted taken
  cases stepped with
  | event landed notes =>
    have ⟨sound, grows⟩ := event_sound inv.sound permitted landed
    exact ⟨⟨kept, sound, fun other member => (inv.backed other (notes ▸ member)).grows grows⟩,
      grows⟩
  | arrived store notes =>
    refine ⟨⟨kept, store ▸ inv.sound, ?_⟩, store ▸ .refl _⟩
    rw [store, notes]
    exact forall_mem_concat inv.backed (opening_backed inv.sound permitted)
  | @called index outcome notes op member allowed store noted =>
    have backed := inv.backed notes member
    have ⟨sound, grows⟩ := perform_sound inv.sound backed allowed outcome
    rw [store]
    refine ⟨⟨kept, store ▸ sound, ?_⟩, grows⟩
    rw [noted, store]
    intro other member
    rcases mem_or_eq_of_mem_set member with old | rfl
    · exact (inv.backed other old).grows grows
    · exact note_backed inv.sound backed allowed outcome

/-- A store without workers. -/
def fresh (world : World) : BinderPool := ⟨world, []⟩

theorem inv_fresh (sound : world.Sound) : Inv quantities (fresh world) := ⟨nofun, sound, nofun⟩

theorem inv_reaches (sound : world.Sound) {state : BinderPool}
    (reached : Transition.Reaches (step quantities) Permitted (fresh world) state) :
    Inv quantities state :=
  reached.invariant (inv_fresh sound) fun _ _ _ inv permitted taken =>
    (inv_step inv permitted taken).1

/-- No volume is shared by two claims. -/
theorem volume_not_shared (quantities : Quantities) {world : World} (sound : world.Sound)
    {state : BinderPool}
    (reached : Transition.Reaches (step quantities) Permitted (fresh world) state)
    {claim other : ClaimKey} {pvc pvc' : Seen} (found : state.store.claims.current claim = some pvc)
    (foundToo : state.store.claims.current other = some pvc')
    (different : uidOf pvc.object ≠ uidOf pvc'.object) :
    ¬(phaseOf pvc.object = "Bound" ∧ phaseOf pvc'.object = "Bound" ∧
      volumeNameOf pvc.object = volumeNameOf pvc'.object) := by
  rintro ⟨bound, boundToo, shared⟩
  have inv := inv_reaches sound reached
  have ⟨pv, recorded, names⟩ := inv.sound.bound claim pvc found bound
  have ⟨pv', recordedToo, namesToo⟩ := inv.sound.bound other pvc' foundToo boundToo
  rw [← shared] at recordedToo
  have named := (inv.sound.named _ (inv.sound.claims.stored claim pvc found)).1
  have namedToo := (inv.sound.named _ (inv.sound.claims.stored other pvc' foundToo)).1
  have same : claim = other := inv.sound.lasting.one _ pv pv' claim other recorded recordedToo
    (refMark_of_names named names) (refMark_of_names namedToo namesToo)
  subst same
  exact different
    (congrArg (fun version => uidOf version.object) (some.inj (found.symm.trans foundToo)))

/-- A claim as it is made, with the finalizer that the binder would add. -/
def claimNamed (name uid : String) (spec : List (String × Value)) : Value :=
  .object [("metadata", .object
    [("finalizers", .array [.string protection]), ("name", .string name),
    ("namespace", .string "ns"), ("uid", .string uid)]), ("spec", .object spec)]

def plainVolume : Value :=
  .object [("metadata", .object [("name", .string "v")]), ("spec", .object [])]

def emptyWorld : World := ⟨.empty, .empty⟩

theorem sound_emptyWorld : emptyWorld.Sound where
  volumes := sound_empty
  claims := sound_empty
  names _ member := by cases member
  named _ member := by cases member
  lasting := lasting_empty
  bound _ _ found := by cases found

/-- A pass that sees the claim as it was made. -/
def passOf (number : Nat) (claim : Value) (volumes : List Seen) : Pass :=
  ⟨⟨number, claim⟩, volumes, [], none, []⟩

/-- Claim `a` takes the volume that claim `b` was made with the name of. -/
def rivals : List Action :=
  [.event (.createVolume "v" plainVolume), .event
    (.createClaim ("ns", "a") (claimNamed "a" "1" [])),
    .event (.createClaim ("ns", "b") (claimNamed "b" "2" [("volumeName", .string "v")])),
    .work (.arrive (passOf 1 (claimNamed "a" "1" []) [⟨1, plainVolume⟩]) ()), .work
      (.call 0 .served),
    .work (.call 0 .served), .work (.call 0 .served),
    .work (.arrive (passOf 2 (claimNamed "b" "2" [("volumeName", .string "v")]) []) ()),
    .work (.call 1 .served), .work (.call 1 .served)]

def bothNamed (state : BinderPool) : Bool :=
  (state.store.claims.current ("ns", "a")).any fun pvc =>
    (state.store.claims.current ("ns", "b")).any fun pvc' =>
      uidOf pvc.object ≠ uidOf pvc'.object ∧ phaseOf pvc.object = "Bound" ∧
        volumeNameOf pvc.object = "v" ∧ volumeNameOf pvc'.object = "v"

theorem volume_not_shared_rivals :
    ∃ (state : BinderPool) (pvc pvc' : Seen),
      Transition.Reaches (step noQuantities) Permitted (fresh emptyWorld) state ∧
      state.store.claims.current ("ns", "a") = some pvc ∧
      state.store.claims.current ("ns", "b") = some pvc' ∧ phaseOf pvc.object = "Bound" ∧
      volumeNameOf pvc.object = "v" ∧ volumeNameOf pvc'.object = "v" ∧
          phaseOf pvc'.object ≠ "Bound" := by
  simp only [exists_and_left]
  refine Transition.exists_reaches_of rivals bothNamed (by decide +kernel)
    fun state reached both => ?_
  have ⟨pvc, found, both⟩ := (Option.any_eq_true _ _).mp both
  have ⟨pvc', foundToo, both⟩ := (Option.any_eq_true _ _).mp both
  have ⟨different, bound, named, namedToo⟩ := of_decide_eq_true both
  refine ⟨pvc, found, pvc', foundToo, bound, named, namedToo, fun boundToo => ?_⟩
  exact volume_not_shared noQuantities sound_emptyWorld reached found foundToo different
    ⟨bound, boundToo, named.trans namedToo.symm⟩

/-- The volume that a bound claim names is reserved for the claim, whatever others have done
since. -/
theorem bound_volume_reserved (quantities : Quantities) {world : World} (sound : world.Sound)
    {state : BinderPool}
    (reached : Transition.Reaches (step quantities) Permitted (fresh world) state)
    {claim : ClaimKey} {pvc pv : Seen} (found : state.store.claims.current claim = some pvc)
    (bound : phaseOf pvc.object = "Bound")
    (stored : state.store.volumes.current (volumeNameOf pvc.object) = some pv) :
    refMark pv.object = some claim := by
  have inv := inv_reaches sound reached
  obtain ⟨reserved, recorded, names⟩ := inv.sound.bound claim pvc found bound
  have named := (inv.sound.named _ (inv.sound.claims.stored claim pvc found)).1
  exact inv.sound.lasting.kept _ reserved claim recorded (refMark_of_names named names) pv stored

theorem bound_volume_reserved_rivals : ∃ (state : BinderPool) (pvc pv : Seen),
    Transition.Reaches (step noQuantities) Permitted (fresh emptyWorld) state ∧
      state.store.volumes.current (volumeNameOf pvc.object) = some pv ∧
      refMark pv.object = some ("ns", "a") := by
  simp only [exists_and_left]
  refine Transition.exists_reaches_of rivals (fun state =>
    (state.store.claims.current ("ns", "a")).any fun pvc => phaseOf pvc.object = "Bound" &&
      (state.store.volumes.current (volumeNameOf pvc.object)).isSome) (by decide +kernel)
    fun state reached tested => ?_
  obtain ⟨pvc, found, tested⟩ := (any_eq_true _ _).mp tested
  obtain ⟨bound, stored⟩ := Bool.and_eq_true_iff.mp tested
  obtain ⟨pv, stored⟩ := isSome_iff_exists.mp stored
  exact ⟨pvc, pv, stored, bound_volume_reserved noQuantities sound_emptyWorld
    reached found (of_decide_eq_true bound) stored⟩

end Rustkube.Volumes
