import Rustkube.ControllerObjects
import Rustkube.Lib.Process
import Rustkube.Lib.Versions
import Rustkube.PodResources
import Rustkube.Selector

/- The binder: which volume satisfies which claim, and the writes that make the two point at each
other. `metadata.resourceVersion` is the number of a version, and stands beside the object. -/
namespace Rustkube.Volumes

open List Option Json Controllers PodResources

abbrev Seen : Type := Version Value

/-- A claim, by namespace and name. -/
abbrev ClaimKey : Type := String × String

variable (object : Value)

def phaseOf : String := textOf object["status"]["phase"]

def volumeNameOf : String := textOf object["spec"]["volumeName"]

def refNs : String := textOf object["spec"]["claimRef"]["namespace"]

def refName : String := textOf object["spec"]["claimRef"]["name"]

def refUid : String := textOf object["spec"]["claimRef"]["uid"]

/-- The claim that a volume's `claimRef` names. -/
def Names (claim : ClaimKey) : Prop := refNs object = claim.1 ∧ refName object = claim.2

instance (claim : ClaimKey) : Decidable (Names object claim) := inferInstanceAs (Decidable (_ ∧ _))

def keyOf : ClaimKey := (object["metadata"]["namespace"].asStr?.getD "default", nameOf object)

section

/-- Only a claim that says nothing of its class takes the default. -/
def claimClass (pvc : Value) (defaultClass : Option String) : Option String :=
  match pvc["spec"]["storageClassName"].asStr? with
  | some "" => none
  | some name => some name
  | none =>
    match pvc["metadata"]["annotations"]["volume.beta.kubernetes.io/storage-class"].asStr? with
    | some "" => none
    | some name => some name
    | none => defaultClass

def hasFinalizer (object : Value) (finalizer : String) : Bool :=
  match object["metadata"]["finalizers"].asArray? with
  | some finalizers => finalizers.any fun held => held.asStr? = some finalizer
  | none => false

/-- A Pod that mounts the claim and has not ended. -/
def podUsingClaim (pods : List Value) (claim : String) : Option String :=
  let running := pods.filter fun pod =>
    ¬(textOf pod["status"]["phase"] = "Succeeded" ∨ textOf pod["status"]["phase"] = "Failed")
  let user := running.find? fun pod =>
    match pod["spec"]["volumes"].asArray? with
    | some volumes => volumes.any fun volume =>
      volume["persistentVolumeClaim"]["claimName"].asStr? = some claim
    | none => false
  user.bind fun pod => pod["metadata"]["name"].asStr?

variable (quantities : Quantities)

def storage (value : Value) : UInt64 := quantities.bytes (value.asStr?.getD "0")

/-- A volume whose `claimRef` names the claim is not asked for its phase, nor whose uid it
carries. -/
def volumeSatisfies (pv pvc : Value) (claim : ClaimKey) (className : Option String) : Bool :=
  let prebound := Names pv claim
  let phase := phaseOf pv
  let wanted := pvc["spec"]["accessModes"].strings
  let offered := pv["spec"]["accessModes"].strings
  !isDeleting pv &&
  (refName pv = "" ∨ prebound) &&
  (prebound ∨ phase = "" ∨ phase = "Pending" ∨ phase = "Available") &&
  textOf pv["spec"]["storageClassName"] = className.getD "" &&
  pvc["spec"]["volumeMode"].asStr?.getD "Filesystem" = pv["spec"]["volumeMode"].asStr?.getD
    "Filesystem" &&
  wanted.all (· ∈ offered) &&
  storage quantities pvc["spec"]["resources"]["requests"]["storage"] ≤
    storage quantities pv["spec"]["capacity"]["storage"] &&
  (pvc["spec"]["selector"].isNull ||
    Selector.matchesLabels pvc["spec"]["selector"] pv["metadata"]["labels"])

/-- `pv["spec"]["claimRef"]` has this namespace and name. -/
def isPrebound (pv : Value) (claim : ClaimKey) : Bool :=
  pv["spec"]["claimRef"]["name"].asStr? = some claim.2 ∧
    pv["spec"]["claimRef"]["namespace"].asStr? = some claim.1

/-- Whether a candidate takes the place of the best one so far: one that names the claim goes before
one that does not, and then the smaller goes first. -/
def better (claim : ClaimKey) (pv best : Value) : Bool :=
  match isPrebound pv claim, isPrebound best claim with
  | true, false => true
  | false, true => false
  | _, _ => storage quantities pv["spec"]["capacity"]["storage"] <
      storage quantities best["spec"]["capacity"]["storage"]

def pickVolume (pvs : List Seen) (pvc : Value) (claim : ClaimKey) (className : Option String) :
    Option Seen :=
  pvs.foldl (fun best pv =>
    if volumeSatisfies quantities pv.object pvc claim className then
      match best with
      | none => some pv
      | some held => if better quantities claim pv.object held.object then some pv else best
    else best) none

variable {quantities} {pvc : Value} {claim : ClaimKey} {className : Option String}

theorem pickVolume_spec {pvs : List Seen} {pv : Seen}
    (picked : pickVolume quantities pvs pvc claim className = some pv) :
    pv ∈ pvs ∧ volumeSatisfies quantities pv.object pvc claim className = true := by
  -- the candidate held so far is always one of those looked at
  have scan : ∀ (rest : List Seen) (best : Option Seen),
      (∀ held ∈ best, held ∈ pvs ∧ volumeSatisfies quantities held.object pvc claim className =
        true) →
      rest ⊆ pvs → ∀ held ∈ rest.foldl (fun best pv =>
        if volumeSatisfies quantities pv.object pvc claim className then
          match best with
          | none => some pv
          | some held => if better quantities claim pv.object held.object then some pv else best
        else best) best,
      held ∈ pvs ∧ volumeSatisfies quantities held.object pvc claim className = true := by
    intro rest
    induction rest with
    | nil => exact fun best holds _ => holds
    | cons head rest ih =>
      intro best holds within
      refine ih _ ?_ fun _ later => within (.tail _ later)
      intro held found
      dsimp only at found
      split_ifs at found with satisfies
      · have candidate : head ∈ pvs ∧
            volumeSatisfies quantities head.object pvc claim className = true :=
          ⟨within (.head _), satisfies⟩
        cases best with
        | none =>
          cases found
          exact candidate
        | some before =>
          dsimp only at found
          split_ifs at found
          · cases found
            exact candidate
          · exact holds held found
      · exact holds held found
  exact scan pvs none (fun _ none => by cases none) (List.Subset.refl _) pv picked

theorem free_of_satisfies {pv : Value}
    (satisfies : volumeSatisfies quantities pv pvc claim className = true) :
    refName pv = "" ∨ Names pv claim := by
  simp only [volumeSatisfies, Bool.and_eq_true, decide_eq_true_eq] at satisfies
  obtain ⟨⟨⟨⟨⟨⟨⟨-, free⟩, -⟩, -⟩, -⟩, -⟩, -⟩, -⟩ := satisfies
  exact free

end

/-- What the binder's patches of a claim set. -/
inductive ClaimPatch where
  | finalizers (list : List Value)
  | storageClass (name : String)
  | provisioner (name : String)
  | volume (name : String)
deriving DecidableEq

/-- `metadata.annotations` with some of them set. -/
def annotate (object : Value) (annotations : List (String × String)) : Option Value :=
  let held := object["metadata"]["annotations"]
  let base := if held.isObject then held else .object []
  object.assignIn "metadata" "annotations"
    (annotations.foldl (fun value (name, text) => value.insert name (.string text)) base)

def ClaimPatch.apply (claim : Value) : ClaimPatch → Option Value
  | .finalizers list => claim.assignIn "metadata" "finalizers" (.array list)
  | .storageClass name => claim.assignIn "spec" "storageClassName" (.string name)
  | .provisioner name => annotate claim [("volume.kubernetes.io/storage-provisioner", name),
      ("volume.beta.kubernetes.io/storage-provisioner", name)]
  | .volume name => do
    let annotated ← annotate claim [("pv.kubernetes.io/bind-completed", "yes"),
      ("pv.kubernetes.io/bound-by-controller", "yes")]
    annotated.assignIn "spec" "volumeName" (.string name)

/-- What the binder asks of the API server. Every write names the version it was made from. -/
inductive Op where
  | getVolume (name : String)
  | putVolume (name : String) (seen : Seen) (body : Value)
  | patchClaim (claim : ClaimKey) (seen : Seen) (patch : ClaimPatch)
  | putStatus (claim : ClaimKey) (seen : Seen) (status : Value)

/-- A request that failed is answered with `none` or `false`; a volume that is not there, with
`some none`. -/
@[reducible] def Answer : Op → Type
  | .getVolume _ => Option (Option Seen)
  | .putVolume .. => Bool
  | .patchClaim .. => Option Seen
  | .putStatus .. => Bool

/-- What a claim's pass works on: the claim, the volumes of its class, the classes and the Pods, as
the informers have them. -/
structure Pass where
  claim : Seen
  volumes : List Seen
  classes : List (String × Value)
  defaultClass : Option String
  pods : List Value

abbrev Work : Type := Process Op Answer (Option Pass)

/-- A pass that has nothing more to do. -/
def stop : Work := .done none

def setClaimPhase (claim : ClaimKey) (pvc : Seen) (phase : String) : Work :=
  if pvc.object["status"]["phase"].asStr? = some phase then stop
  else
    match pvc.object.assignIn "status" "phase" (.string phase) with
    | some updated => .call (.putStatus claim pvc updated["status"]) fun _ => stop
    | none => stop

/-- `status` of a claim that names its volume. -/
def boundStatus (pvc pv : Value) : Value :=
  let base := if pvc["status"].isObject then pvc["status"] else .object []
  let modes := Value.array (items pv["spec"]["accessModes"])
  let capacity := Value.object [("storage", .string (textOf pv["spec"]["capacity"]["storage"]))]
  let status := (base.insert "phase" (.string "Bound")).insert "accessModes" modes
  if textOf pvc["status"]["capacity"]["storage"] = "" ∨ phaseOf pvc ≠ "Bound" then
    status.insert "capacity" capacity
  else status

def setBoundStatus (claim : ClaimKey) (pvc : Seen) (pv : Value) : Work :=
  if phaseOf pvc.object = "Bound" ∧
    textOf pvc.object["status"]["capacity"]["storage"] ≠ "" then stop
  else .call (.putStatus claim pvc (boundStatus pvc.object pv)) fun _ => stop

def claimRefTo (claim : ClaimKey) (uid : String) : Value :=
  .object [("apiVersion", .string "v1"), ("kind", .string "PersistentVolumeClaim"),
    ("name", .string claim.2), ("namespace", .string claim.1), ("uid", .string uid)]

/-- The volume with a `claimRef` to the claim. -/
def boundVolume (pv : Value) (claim : ClaimKey) (uid : String) : Option Value := do
  let referred ← pv.assignIn "spec" "claimRef" (claimRefTo claim uid)
  annotate referred [("pv.kubernetes.io/bound-by-controller", "yes")]

/-- Then the claim: its `volumeName`, and its status from what was just written. -/
def bindClaim (claim : ClaimKey) (pvc pv : Seen) : Work :=
  .call (.patchClaim claim pvc (.volume (nameOf pv.object))) fun answer =>
    match (answer : Option Seen) with
    | some bound => setBoundStatus claim bound pv.object
    | none => stop

/-- The volume first, unless it is the claim's already. -/
def bind (claim : ClaimKey) (pvc pv : Seen) : Work :=
  if pv.object["metadata"]["name"].asStr?.isNone then stop
  else
    let uid := uidOf pvc.object
    let preBound := isPrebound pv.object claim ∧ uid ≠ "" ∧
      pv.object["spec"]["claimRef"]["uid"].asStr? = some uid
    match boundVolume pv.object claim uid with
    | none => stop
    | some volume =>
      if preBound then bindClaim claim pvc pv
      else .call (.putVolume (nameOf pv.object) pv volume) fun landed =>
        if (landed : Bool) then bindClaim claim pvc pv else stop

/-- A claim that names its volume. -/
def syncBoundClaim (claim : ClaimKey) (pvc : Seen) (volumeName : String) : Work :=
  .call (.getVolume volumeName) fun answer =>
    match (answer : Option (Option Seen)) with
    | none => stop
    | some none => setClaimPhase claim pvc "Lost"
    | some (some pv) =>
      let uid := uidOf pvc.object
      if refName pv.object ≠ "" ∧ ¬Names pv.object claim then setClaimPhase claim pvc "Lost"
      else if refName pv.object = "" ∨ (refUid pv.object = "" ∧ uid ≠ "") then bind claim pvc pv
      else if uid ≠ "" ∧ refUid pv.object ≠ uid then setClaimPhase claim pvc "Lost"
      else setBoundStatus claim pvc pv.object

def protection : String := "kubernetes.io/pvc-protection"

def patchOnly (claim : ClaimKey) (pvc : Seen) (patch : ClaimPatch) : Work :=
  .call (.patchClaim claim pvc patch) fun _ => stop

/-- Nothing matched: the claim waits, for an administrator, for a consumer or for the provisioner
that its annotation names. -/
def await (claim : ClaimKey) (pvc : Seen) (storageClass : Option Value) : Work :=
  match storageClass with
  | none => setClaimPhase claim pvc "Pending"
  | some storageClass =>
    let provisioner := textOf storageClass["provisioner"]
    let annotations := pvc.object["metadata"]["annotations"]
    let selected := textOf annotations["volume.kubernetes.io/selected-node"]
    if provisioner = "" ∨ provisioner = "kubernetes.io/no-provisioner" then
      setClaimPhase claim pvc "Pending"
    else if storageClass["volumeBindingMode"].asStr? = some "WaitForFirstConsumer" ∧
        selected = "" then
      setClaimPhase claim pvc "Pending"
    else if annotations["volume.kubernetes.io/storage-provisioner"].asStr? ≠ some provisioner then
      .call (.patchClaim claim pvc (.provisioner provisioner)) fun answer =>
        if (answer : Option Seen).isSome then setClaimPhase claim pvc "Pending" else stop
    else setClaimPhase claim pvc "Pending"

variable (quantities : Quantities)

/-- The volume that an unbound claim takes, if there is one. -/
def Pass.picked (pass : Pass) : Option Seen :=
  let pvc := pass.claim.object
  pickVolume quantities pass.volumes pvc (keyOf pvc) (claimClass pvc pass.defaultClass)

/-- The claim is such that its pass comes to pick a volume. -/
def Pass.Picks (pass : Pass) : Prop :=
  let pvc := pass.claim.object
  pvc["metadata"]["name"].asStr?.isSome = true ∧ isDeleting pvc = false ∧
    hasFinalizer pvc protection = true ∧ volumeNameOf pvc = "" ∧
    (pvc["spec"]["storageClassName"].asStr?.isSome = true ∨
      claimClass pvc pass.defaultClass = none)

instance (pass : Pass) : Decidable pass.Picks := inferInstanceAs (Decidable (_ ∧ _))

def syncClaim (pass : Pass) : Work :=
  let pvc := pass.claim.object
  let claim := keyOf pvc
  let finalizers := items pvc["metadata"]["finalizers"]
  let className := claimClass pvc pass.defaultClass
  let unclassed := pvc["spec"]["storageClassName"].asStr?.isNone
  if pvc["metadata"]["name"].asStr?.isNone then stop
  else if isDeleting pvc then
    if (podUsingClaim pass.pods claim.2).isSome ∨ ¬hasFinalizer pvc protection then stop
    else patchOnly claim pass.claim
      (.finalizers (finalizers.filter fun held => held.asStr? ≠ some protection))
  else if ¬hasFinalizer pvc protection then
    patchOnly claim pass.claim (.finalizers (finalizers ++ [.string protection]))
  else
    match className, unclassed with
    | some name, true => patchOnly claim pass.claim (.storageClass name)
    | _, _ =>
      if volumeNameOf pvc ≠ "" then syncBoundClaim claim pass.claim (volumeNameOf pvc)
      else
        match pass.picked quantities with
        | some pv => bind claim pass.claim pv
        | none => await claim pass.claim (className.bind fun name => pass.classes.lookup name)

/-- `pod_claims` of the scheduler. The claim of an ephemeral volume is named after its Pod. -/
def podClaims (pod : Value) : List String :=
  (items pod["spec"]["volumes"]).filterMap fun volume =>
    match volume["persistentVolumeClaim"]["claimName"].asStr? with
    | some claim => some claim
    | none =>
      if (volume.get? "ephemeral").isSome then some (nameOf pod ++ "-" ++ textOf volume["name"])
        else none

/-- The Pod has not ended, and a volume of it names the claim. -/
def mounts (claim : String) (pod : Value) : Bool :=
  phaseOf pod ∉ ["Succeeded", "Failed"] &&
    (items pod["spec"]["volumes"]).any fun volume =>
      volume["persistentVolumeClaim"]["claimName"].asStr? = some claim

theorem podUsingClaim_eq (pods : List Value) (claim : String) :
    podUsingClaim pods claim =
      (pods.find? (mounts claim)).bind fun pod => pod["metadata"]["name"].asStr? := by
  unfold podUsingClaim
  dsimp only
  rw [find?_filter]
  congr 2
  funext pod
  rw [Bool.eq_iff_iff]
  cases isArray : pod["spec"]["volumes"].asArray? <;> simp [mounts, items, phaseOf, isArray]

/-- The claim is seen to be used, and keeps its finalizer. -/
def Protected (pass : Pass) (claim : String) : Prop :=
  (podUsingClaim pass.pods claim).isSome = true ∧
    (isDeleting pass.claim.object = true → nameOf pass.claim.object = claim →
      syncClaim quantities pass = stop)

/-- A claim that an unfinished Pod uses is protected exactly when a Pod has it in a volume that
names it, and the first of these has a name. -/
theorem claim_in_use_protected (pass : Pass) (claim : String) :
    (∀ pod ∈ pass.pods, phaseOf pod ∉ ["Succeeded", "Failed"] → claim ∈ podClaims pod →
        Protected quantities pass claim) ↔
      ∀ pod ∈ pass.pods, phaseOf pod ∉ ["Succeeded", "Failed"] → claim ∈ podClaims pod →
        ∃ user ∈ pass.pods.find? (mounts claim), user["metadata"]["name"].asStr?.isSome = true := by
  have iff : Protected quantities pass claim ↔
      ∃ user ∈ pass.pods.find? (mounts claim), user["metadata"]["name"].asStr?.isSome = true := by
    rw [Protected, podUsingClaim_eq, isSome_bind, Option.any_eq_true]
    refine and_iff_left_of_imp fun isUser deleting isClaim => ?_
    rw [← Option.any_eq_true, ← isSome_bind, ← podUsingClaim_eq] at isUser
    simp [syncClaim, deleting, keyOf, isClaim, isUser]
  rw [iff]

/-- A Pod `web` with one volume, and a claim that is deleted. -/
def mounting (volume : String × Value) (claim : String) : Pass :=
  ⟨⟨1, .object [("metadata", .object [("name", .string claim), ("deletionTimestamp", .string "now"),
    ("finalizers", .array [.string protection])])]⟩, [], [], none,
    [.object [("metadata", .object [("name", .string "web")]),
      ("spec", .object [("volumes", .array [.object [("name", .string "disk"), volume]])])]]⟩

theorem claim_in_use_protected_named : syncClaim noQuantities
    (mounting ("persistentVolumeClaim", .object [("claimName", .string "data")]) "data") = stop :=
  ((claim_in_use_protected _ _ "data").mpr (fun _ _ _ _ => ⟨_, rfl, by decide⟩) _
    (mem_singleton_self _) (by decide) (.head _)).2 (by decide) (by decide)

/-- The claim of an ephemeral volume loses its finalizer under the Pod. -/
theorem ephemeral_claim_unprotected :
    let pass := mounting ("ephemeral", .object []) "web-disk"
    (∀ pod ∈ pass.pods, phaseOf pod = "" ∧ "web-disk" ∈ podClaims pod) ∧
      syncClaim noQuantities pass = patchOnly ("default", "web-disk") pass.claim (.finalizers []) :=
  ⟨by decide, rfl⟩

end Rustkube.Volumes
