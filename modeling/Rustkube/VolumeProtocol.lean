import Rustkube.VolumeBinder

/- What a claim's pass may ask of the API server, and what the server makes of it. -/
namespace Rustkube.Volumes

open Option Prod Json Controllers

structure World where
  volumes : Versions String Value
  claims : Versions ClaimKey Value

variable {patch : ClaimPatch} {claim : ClaimKey} {name : String} {seen : Seen} {α : Type}

def settle {α : Type} (outcome : Outcome) (world : World) (failure : α)
    (landed : Option (α × World)) : α × World :=
  match outcome, landed with
  | .served, some (answer, after) => (answer, after)
  | .lost, some (_, after) => (failure, after)
  | _, _ => (failure, world)

/-- Every write is a swap on the version that the binder saw. A status write takes the status
alone. -/
def perform (world : World) : (op : Op) → Outcome → Answer op × World
  | .getVolume name, outcome =>
    (if outcome = .served then some (world.volumes.current name) else none, world)
  | .putVolume name seen body, outcome => settle outcome world false
      ((world.volumes.swap name body seen.number).map fun volumes => (true, { world with volumes }))
  | .patchClaim claim seen patch, outcome => settle outcome world none do
      let stored ← world.claims.current claim
      let body ← patch.apply stored.object
      let claims ← world.claims.swap claim body seen.number
      return (some (world.claims.next body), { world with claims })
  | .putStatus claim seen status, outcome => settle outcome world false do
      let stored ← world.claims.current claim
      let body ← stored.object.assign "status" status
      let claims ← world.claims.swap claim body seen.number
      return (true, { world with claims })

/-- A write that landed. -/
inductive Landed (world : World) : Op → World → Prop
  | putVolume {name : String} {seen : Seen} {body : Value} {volumes : Versions String Value}
      (swapped : world.volumes.swap name body seen.number = some volumes) :
      Landed world (.putVolume name seen body) { world with volumes }
  | patchClaim {claim : ClaimKey} {seen stored : Seen} {patch : ClaimPatch} {body : Value}
      {claims : Versions ClaimKey Value} (found : world.claims.current claim = some stored)
      (applied : patch.apply stored.object = some body)
      (swapped : world.claims.swap claim body seen.number = some claims) :
      Landed world (.patchClaim claim seen patch) { world with claims }
  | putStatus {claim : ClaimKey} {seen stored : Seen} {status body : Value}
      {claims : Versions ClaimKey Value} (found : world.claims.current claim = some stored)
      (assigned : stored.object.assign "status" status = some body)
      (swapped : world.claims.swap claim body seen.number = some claims) :
      Landed world (.putStatus claim seen status) { world with claims }

theorem settle_world {outcome : Outcome} {world : World} {failure : α}
    {landed : Option (α × World)} :
    (settle outcome world failure landed).2 = world ∨
      ∃ answer, landed = some (answer, (settle outcome world failure landed).2) := by
  unfold settle
  split
  · next answer after => exact .inr ⟨answer, rfl⟩
  · next answer after => exact .inr ⟨answer, rfl⟩
  · exact .inl rfl

theorem settle_answer {outcome : Outcome} {world : World} {failure : α}
    {landed : Option (α × World)} :
    (settle outcome world failure landed).1 = failure ∨
      landed = some (settle outcome world failure landed) := by
  unfold settle
  split
  · exact .inr rfl
  · exact .inl rfl
  · exact .inl rfl

theorem perform_world (world : World) (op : Op) (outcome : Outcome) :
    (perform world op outcome).2 = world ∨ Landed world op (perform world op outcome).2 := by
  cases op with
  | getVolume name => exact .inl rfl
  | putVolume name seen body =>
    refine settle_world.imp_right fun ⟨answer, landed⟩ => ?_
    have ⟨volumes, swapped, same⟩ := map_eq_some_iff.mp landed
    exact (mk.inj same).2 ▸ .putVolume swapped
  | patchClaim claim seen patch =>
    refine settle_world.imp_right fun ⟨answer, landed⟩ => ?_
    have ⟨stored, found, landed⟩ := bind_eq_some_iff.mp landed
    have ⟨body, applied, landed⟩ := bind_eq_some_iff.mp landed
    have ⟨claims, swapped, landed⟩ := bind_eq_some_iff.mp landed
    exact (mk.inj (some.inj landed)).2 ▸ .patchClaim found applied swapped
  | putStatus claim seen status =>
    refine settle_world.imp_right fun ⟨answer, landed⟩ => ?_
    have ⟨stored, found, landed⟩ := bind_eq_some_iff.mp landed
    have ⟨body, assigned, landed⟩ := bind_eq_some_iff.mp landed
    have ⟨claims, swapped, landed⟩ := bind_eq_some_iff.mp landed
    exact (mk.inj (some.inj landed)).2 ▸ .putStatus found assigned swapped

theorem getVolume_answer {world : World} {outcome : Outcome} {pv : Seen}
    (given : (perform world (.getVolume name) outcome).1 = some (some pv)) :
    world.volumes.current name = some pv := by
  change (if outcome = .served then some (world.volumes.current name) else none) = _ at given
  split_ifs at given
  exact some.inj given

theorem putVolume_answer {world : World} {body : Value}
    {outcome : Outcome} (given : (perform world (.putVolume name seen body) outcome).1 = true) :
    world.volumes.swap name body seen.number =
      some (perform world (.putVolume name seen body) outcome).2.volumes := by
  rcases @settle_answer _ outcome world false
    ((world.volumes.swap name body seen.number).map fun volumes => (true, { world with volumes }))
    with failed | landed
  · cases given.symm.trans failed
  · have ⟨volumes, swapped, same⟩ := map_eq_some_iff.mp landed
    rw [swapped]
    exact congrArg (fun after => some after.2.volumes) same

/-- The claim that is given back is the one just written. -/
theorem patchClaim_answer {world : World}
    {outcome : Outcome} {bound : Seen}
    (given : (perform world (.patchClaim claim seen patch) outcome).1 = some bound) :
    ∃ stored body, world.claims.current claim = some stored ∧ patch.apply stored.object =
      some body ∧ world.claims.swap claim body seen.number =
        some (perform world (.patchClaim claim seen patch) outcome).2.claims ∧
      bound = world.claims.next body := by
  rcases @settle_answer _ outcome world none (do
      let stored ← world.claims.current claim
      let body ← patch.apply stored.object
      let claims ← world.claims.swap claim body seen.number
      return (some (world.claims.next body), { world with claims })) with failed | landed
  · cases given.symm.trans failed
  · have ⟨stored, found, landed⟩ := bind_eq_some_iff.mp landed
    have ⟨body, applied, landed⟩ := bind_eq_some_iff.mp landed
    have ⟨claims, swapped, landed⟩ := bind_eq_some_iff.mp landed
    have ⟨answer, after⟩ := mk.inj (some.inj landed)
    refine ⟨stored, body, found, applied, ?_, some.inj (given.symm.trans answer.symm)⟩
    rw [swapped]
    exact congrArg (fun world => some world.claims) after

variable {object after : Value} {inner : List String}

theorem annotate_within {annotations : List (String × String)}
    (written : annotate object annotations = some after) :
    Value.Within "metadata" ["annotations"] object after := .of_assignIn written

theorem volumeNameOf_within (within : Value.Within "metadata" inner object after) :
    volumeNameOf after = volumeNameOf object := by
  unfold volumeNameOf
  rw [within.outside "spec" (by decide)]

/-- The volume a claim names once it is patched. -/
def ClaimPatch.volumeOf (claim : Value) : ClaimPatch → String
  | .volume name => name
  | _ => volumeNameOf claim

theorem apply_spec (applied : patch.apply object = some after) :
    after["status"] = object["status"] ∧ uidOf after = uidOf object ∧
      volumeNameOf after = patch.volumeOf object := by
  have ofMetadata {inner : List String} (within : Value.Within "metadata" inner object after)
      (free : "uid" ∉ inner) : after["status"] = object["status"] ∧ uidOf after = uidOf object ∧
      volumeNameOf after = volumeNameOf object :=
    ⟨within.outside "status" (by decide), uidOf_within within free, volumeNameOf_within within⟩
  cases patch with
  | finalizers list => exact ofMetadata (.of_assignIn applied) (by decide)
  | storageClass name =>
    have within : Value.Within "spec" ["storageClassName"] object after := .of_assignIn applied
    refine ⟨within.outside "status" (by decide), ?_, congrArg textOf
      (within.inside "volumeName" (by decide))⟩
    unfold uidOf
    rw [within.outside "metadata" (by decide)]
  | provisioner name => exact ofMetadata (annotate_within applied) (by decide)
  | volume name =>
    have ⟨annotated, first, second⟩ := bind_eq_some_iff.mp applied
    have outer := annotate_within first
    have within : Value.Within "spec" ["volumeName"] annotated after := .of_assignIn second
    refine ⟨?_, ?_, ?_⟩
    · rw [within.outside "status" (by decide), outer.outside "status" (by decide)]
    · rw [← uidOf_within outer (by decide)]
      unfold uidOf
      rw [within.outside "metadata" (by decide)]
    · change textOf after["spec"]["volumeName"] = name
      rw [Value.assignIn_self second]
      rfl

theorem boundVolume_spec {uid : String}
    (bound : boundVolume object claim uid = some after) :
    nameOf after = nameOf object ∧ Names after claim ∧ refUid after = uid := by
  have ⟨referred, first, second⟩ := bind_eq_some_iff.mp bound
  have outer := annotate_within second
  have inner : Value.Within "spec" ["claimRef"] object referred := .of_assignIn first
  have reference : after["spec"]["claimRef"] = claimRefTo claim uid := by
    rw [outer.outside "spec" (by decide), Value.assignIn_self first]
  refine ⟨?_, ⟨?_, ?_⟩, ?_⟩
  · unfold nameOf
    rw [outer.inside "name" (by decide), inner.outside "metadata" (by decide)]
  · unfold refNs
    rw [reference]
    rfl
  · unfold refName
    rw [reference]
    rfl
  · unfold refUid
    rw [reference]
    rfl

/-- What a pass knows: the claim it is for, the versions of it and of volumes that it was shown, and
the volumes it has reserved. It is `careful` as long as it was shown no volume that it takes
although it carries the uid of another claim. -/
structure Notes where
  claim : ClaimKey
  uid : String
  views : List Seen
  volumes : List Seen
  reserved : List String
  careful : Bool

/-- A `claimRef` with a uid has a name. -/
def WellFormed (pv : Value) : Prop := refUid pv = "" ∨ refName pv ≠ ""

instance (pv : Value) : Decidable (WellFormed pv) := inferInstanceAs (Decidable (_ ∨ _))

/-- The volume carries the uid of no other claim. -/
def Untaken (pv : Value) (uid : String) : Prop := refUid pv = "" ∨ refUid pv = uid

instance (pv : Value) (uid : String) : Decidable (Untaken pv uid) :=
  inferInstanceAs (Decidable (_ ∨ _))

def Pass.opening (quantities : Quantities) (pass : Pass) : Notes where
  claim := keyOf pass.claim.object
  uid := uidOf pass.claim.object
  views := [pass.claim]
  volumes := pass.volumes
  reserved := []
  careful := decide (pass.Picks →
    ∀ pv ∈ pass.picked quantities, Untaken pv.object (uidOf pass.claim.object))

namespace Notes

variable (notes : Notes) (name : String)

/-- The volume was seen to name the claim. -/
def Holds : Prop :=
  name ∈ notes.reserved ∨ ∃ pv ∈ notes.volumes, nameOf pv.object = name ∧
    Names pv.object notes.claim

/-- The volume was seen to name the claim by its uid. -/
def Owns : Prop :=
  name ∈ notes.reserved ∨ ∃ pv ∈ notes.volumes, nameOf pv.object = name ∧
    Names pv.object notes.claim ∧ refUid pv.object = notes.uid

variable {notes name}

theorem Owns.holds (owns : notes.Owns name) : notes.Holds name :=
  owns.imp_right fun ⟨pv, member, named, names, _⟩ => ⟨pv, member, named, names⟩

end Notes

def allows (notes : Notes) : Op → Prop
  | .getVolume _ => True
  | .putVolume name seen body => seen ∈ notes.volumes ∧ nameOf seen.object = name ∧
      nameOf body = name ∧ Names body notes.claim ∧ refUid body = notes.uid ∧
      (refName seen.object = "" ∨ Names seen.object notes.claim) ∧
      (notes.careful = true → Untaken seen.object notes.uid)
  | .patchClaim claim seen patch => claim = notes.claim ∧ seen ∈ notes.views ∧
      ∀ name, patch = .volume name → notes.Owns name
  | .putStatus claim seen status => claim = notes.claim ∧ seen ∈ notes.views ∧
      (textOf status["phase"] = "Bound" → notes.Holds (volumeNameOf seen.object))

def expects (_ : Notes) : (op : Op) → Answer op → Prop
  | .getVolume name, answer => ∀ pv, answer = some (some pv) → nameOf pv.object = name
  | .patchClaim _ _ patch, answer => ∀ bound, answer = some bound →
      ∀ name, patch = .volume name → volumeNameOf bound.object = name
  | _, _ => True

def note (notes : Notes) : (op : Op) → Answer op → Notes
  | .getVolume _, some (some pv) =>
    { notes with
      volumes := pv :: notes.volumes
      careful := notes.careful && decide (WellFormed pv.object) }
  | .putVolume name _ _, true => { notes with reserved := name :: notes.reserved }
  | .patchClaim _ _ _, some bound => { notes with views := bound :: notes.views }
  | _, _ => notes

/-- The passes over claims, over one store. -/
def binder (quantities : Quantities) : Machine World Pass Unit Outcome Notes Op Answer where
  perform _ := perform
  attempt _ := syncClaim quantities
  opening := Pass.opening quantities
  protocol := ⟨allows, expects, note⟩

variable {quantities : Quantities} (notes : Notes) {claim : ClaimKey} {pvc pv : Seen}

abbrev Keeps (quantities : Quantities) (work : Work) (notes : Notes) : Prop :=
  work.Follows (binder quantities).protocol (fun _ result => ∀ next ∈ result, (True : Prop)) notes

theorem stop_keeps : Keeps quantities stop notes := fun _ _ => trivial

section

variable (isClaim : claim = notes.claim) (shown : pvc ∈ notes.views)

include isClaim shown

theorem setClaimPhase_keeps {phase : String} (other : phase ≠ "Bound") :
    Keeps quantities (setClaimPhase claim pvc phase) notes := by
  unfold setClaimPhase
  split_ifs
  · exact stop_keeps _
  · split
    · next updated written =>
      refine ⟨⟨isClaim, shown, fun bound => absurd ?_ other⟩, fun _ _ => stop_keeps _⟩
      rwa [Value.assignIn_self written] at bound
    · exact stop_keeps _

theorem setBoundStatus_keeps (holds : notes.Holds (volumeNameOf pvc.object)) (pv : Value) :
    Keeps quantities (setBoundStatus claim pvc pv) notes := by
  unfold setBoundStatus
  split_ifs
  · exact stop_keeps _
  · exact ⟨⟨isClaim, shown, fun _ => holds⟩, fun _ _ => stop_keeps _⟩

theorem bindClaim_keeps (owns : notes.Owns (nameOf pv.object)) :
    Keeps quantities (bindClaim claim pvc pv) notes := by
  refine ⟨⟨isClaim, shown, fun name same => ?_⟩, fun answer expected => ?_⟩
  · obtain rfl := ClaimPatch.volume.inj same
    exact owns
  · cases answer with
    | none => exact stop_keeps _
    | some bound =>
      have holds : ({ notes with views := bound :: notes.views } : Notes).Holds
          (volumeNameOf bound.object) := (expected bound rfl _ rfl).symm ▸ owns.holds
      exact setBoundStatus_keeps { notes with views := bound :: notes.views } isClaim
        (.head _) holds pv.object

theorem bind_keeps (isUid : uidOf pvc.object = notes.uid) (offered : pv ∈ notes.volumes)
    (free : refName pv.object = "" ∨ Names pv.object claim)
    (untaken : notes.careful = true → Untaken pv.object notes.uid) :
    Keeps quantities (bind claim pvc pv) notes := by
  unfold bind
  split_ifs
  · exact stop_keeps _
  · dsimp only
    split
    · exact stop_keeps _
    · next volume bound =>
      have ⟨sameName, names, uid⟩ := boundVolume_spec bound
      split_ifs with preBound
      · refine bindClaim_keeps notes isClaim shown (.inr ⟨pv, offered, rfl, ?_, ?_⟩)
        · obtain ⟨prebound, -, -⟩ := preBound
          simp only [isPrebound, decide_eq_true_eq] at prebound
          rw [← isClaim]
          exact ⟨by simp [refNs, textOf, prebound.2], by simp [refName, textOf, prebound.1]⟩
        · rw [← isUid]
          simp [refUid, textOf, preBound.2.2]
      · refine ⟨⟨offered, rfl, sameName, isClaim ▸ names, uid.trans isUid, isClaim ▸ free, untaken⟩,
          fun landed _ => ?_⟩
        cases landed with
        | false => exact stop_keeps _
        | true =>
          have owns : ({ notes with reserved := nameOf pv.object :: notes.reserved } : Notes).Owns
            (nameOf pv.object) := .inl (.head _)
          exact bindClaim_keeps { notes with reserved := nameOf pv.object :: notes.reserved }
            isClaim shown owns

theorem syncBoundClaim_keeps (isUid : uidOf pvc.object = notes.uid) :
    Keeps quantities (syncBoundClaim claim pvc (volumeNameOf pvc.object)) notes := by
  refine ⟨trivial, fun answer expected => ?_⟩
  match answer, expected with
  | none, _ => exact stop_keeps _
  | some none, _ => exact @setClaimPhase_keeps _ notes _ _ isClaim shown "Lost" (by decide)
  | some (some pv), expected =>
    have isNamed : nameOf pv.object = volumeNameOf pvc.object := expected pv rfl
    set shownTo : Notes := { notes with
      volumes := pv :: notes.volumes
      careful := notes.careful && decide (WellFormed pv.object) } with isShown
    have offered : pv ∈ shownTo.volumes := .head _
    dsimp only
    split_ifs with other unreferred misbound
    · exact @setClaimPhase_keeps _ shownTo _ _ isClaim shown "Lost" (by decide)
    · have free : refName pv.object = "" ∨ Names pv.object claim := by tauto
      refine bind_keeps shownTo isClaim shown isUid offered free fun careful => ?_
      rw [isShown, Bool.and_eq_true, decide_eq_true_eq] at careful
      rcases unreferred with nameless | ⟨unmarked, -⟩
      · exact .inl (careful.2.resolve_right (not_not.mpr nameless))
      · exact .inl unmarked
    · exact @setClaimPhase_keeps _ shownTo _ _ isClaim shown "Lost" (by decide)
    · have names : Names pv.object claim := by tauto
      exact setBoundStatus_keeps shownTo isClaim shown
        (.inr ⟨pv, offered, isNamed, isClaim ▸ names⟩) pv.object

theorem patchOnly_keeps (other : ∀ name, patch ≠ .volume name) :
    Keeps quantities (patchOnly claim pvc patch) notes :=
  ⟨⟨isClaim, shown, fun name same => absurd same (other name)⟩, fun _ _ => stop_keeps _⟩

theorem await_keeps (storageClass : Option Value) :
    Keeps quantities (await claim pvc storageClass) notes := by
  have pending (notes : Notes) (isClaim : claim = notes.claim) (shown : pvc ∈ notes.views) :
      Keeps quantities (setClaimPhase claim pvc "Pending") notes :=
    setClaimPhase_keeps notes isClaim shown (by decide)
  unfold await
  split
  · exact pending _ isClaim shown
  · dsimp only
    split_ifs
    · exact pending _ isClaim shown
    · exact pending _ isClaim shown
    · refine ⟨⟨isClaim, shown, fun _ same => by cases same⟩, fun answer _ => ?_⟩
      cases answer with
      | none => exact stop_keeps _
      | some annotated =>
        exact pending { notes with views := annotated :: notes.views } isClaim
          (.tail _ shown)
    · exact pending _ isClaim shown

end

theorem syncClaim_keeps (quantities : Quantities) (pass : Pass) :
    Keeps quantities (syncClaim quantities pass) (pass.opening quantities) := by
  have shown : pass.claim ∈ (pass.opening quantities).views := List.mem_singleton_self _
  unfold syncClaim
  by_cases nameless : pass.claim.object["metadata"]["name"].asStr?.isNone = true
  · rw [if_pos nameless]
    exact stop_keeps _
  rw [if_neg nameless]
  by_cases deleting : isDeleting pass.claim.object = true
  · split_ifs
    · exact stop_keeps _
    · exact patchOnly_keeps _ rfl shown nofun
  rw [if_neg deleting]
  by_cases unprotected : ¬hasFinalizer pass.claim.object protection
  · rw [if_pos unprotected]
    exact patchOnly_keeps _ rfl shown nofun
  rw [if_neg unprotected]
  split
  · exact patchOnly_keeps _ rfl shown nofun
  · next classed =>
    split_ifs with unbound
    · exact syncBoundClaim_keeps _ rfl shown rfl
    · split
      · next pv picked =>
        have ⟨offered, satisfies⟩ := pickVolume_spec picked
        have picks : pass.Picks := by
          refine ⟨Option.isSome_iff_ne_none.mpr
            (by simpa using nameless), by simpa using deleting, by simpa using unprotected,
            not_not.mp unbound, ?_⟩
          by_contra neither
          rw [not_or, Bool.not_eq_true, Option.isSome_eq_false_iff] at neither
          obtain ⟨name, given⟩ := Option.ne_none_iff_exists'.mp neither.2
          exact classed name given neither.1
        exact bind_keeps _ rfl shown rfl offered (free_of_satisfies satisfies) fun careful =>
          of_decide_eq_true careful picks pv picked
      · exact await_keeps _ rfl shown _

def discipline (quantities : Quantities) : (binder quantities).Discipline where
  admitted _ := True
  settled _ := True
  follows _ pass _ := (syncClaim_keeps quantities pass).imp fun _ _ all => ⟨trivial, all⟩

end Rustkube.Volumes
