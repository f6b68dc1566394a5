import Rustkube.Lib.StableSort
import Rustkube.ReplicaSet

/- A StatefulSet's pass over its Pods: one Pod is made or deleted at a time, by ordinal. -/
namespace Rustkube.StatefulSet

open List Json Controllers ReplicaSet

section

open Option Rollout

/-- The number after the last dash. -/
def extractOrdinal (podName : String) : Option Nat :=
  (Text.split podName '-').getLast?.bind parseU64Text

def ordinal (pod : Value) : Nat := (extractOrdinal (nameOf pod)).getD 0

def podName (sts : Value) (ordinal : Nat) : String :=
  nameOf sts ++ String.singleton '-' ++ toString ordinal

def desired (sts : Value) : Nat := (count? sts["spec"]["replicas"]).getD 1

/-- The Pods that have not ended, in the order of their ordinals. -/
def ownedPods (sts : Value) (pods : List Value) : List Value :=
  ((pods.filter (ownedBy · (uidOf sts))).filter (!hasEnded ·)).insertionSort
    fun left right => ordinal left ≤ ordinal right

section

variable (namespaceName : String) (sts : Value) (ordinal : Nat)

def podLabels : Value :=
  let labels := sts["spec"]["template"]["metadata"]["labels"]
  (if labels.isNull then .object [] else labels).insert "statefulset.kubernetes.io/pod-name"
    (.string (podName sts ordinal))

/-- The host name and the subdomain are the Pod's network identity. -/
def podSpec : Value :=
  let service := textOf sts["spec"]["serviceName"]
  let spec := sts["spec"]["template"]["spec"].insert "hostname" (.string (podName sts ordinal))
  if service = "" then spec else spec.insert "subdomain" (.string service)

def buildStatefulsetPod : Value :=
  .object [("apiVersion", .string "v1"), ("kind", .string "Pod"),
    ("metadata", .object [("name", .string (podName sts ordinal)),
      ("namespace", .string namespaceName), ("labels", podLabels sts ordinal),
      ("ownerReferences", .array [ownerReference "apps/v1" "StatefulSet" sts])]),
    ("spec", podSpec sts ordinal), ("status", .object [("phase", .string "Pending")])]

end

inductive Call where
  | create (pod : Value)
  | delete (pod : Value)
deriving DecidableEq

/-- The next Pod is made when the last one is ready; the last one is deleted when there are too
many. -/
def nextCall (namespaceName : String) (sts : Value) (owned : List Value) : Option Call :=
  if owned.length < desired sts then
    if owned.getLast?.any (!isPodReady ·) then none
    else some (.create (buildStatefulsetPod namespaceName sts owned.length))
  else if desired sts < owned.length then
    match owned.getLast? with
    | some pod =>
      if textOf pod["status"]["phase"] ≠ "Terminating" ∧ nameOf pod ≠ "" then some (.delete pod)
      else none
    | none => none
  else none

def updateStatus (sts : Value) (owned : List Value) : Value :=
  .object [("replicas", .number owned.length), ("readyReplicas", .number (owned.countP isPodReady)),
    ("currentReplicas", .number owned.length), ("updatedReplicas", .number owned.length),
    ("observedGeneration", .number ((count? sts["metadata"]["generation"]).getD 1))]

/-- What a pass asks for: at most one Pod made or deleted, and then the status. -/
structure Pass where
  call : Option Call
  status : Value

/-- A StatefulSet that is being deleted is left to the garbage collector. -/
def reconcileStatefulset (namespaceName : String) (sts : Value) (pods : List Value) :
    Except String (Option Pass) :=
  match sts["metadata"]["name"].asStr? with
  | none => .error "statefulset missing name"
  | some _ =>
    if isDeleting sts then .ok none
    else
      let owned := ownedPods sts pods
      .ok (some ⟨nextCall namespaceName sts owned, updateStatus sts owned⟩)

variable {pod : Value}

variable {namespaceName : String} {sts : Value} {number : Nat} {pods : List Value}

theorem podName_injective (sts : Value) : Function.Injective (podName sts) := by
  intro first second same
  have digits : toString first = toString second := by
    apply String.toList_injective
    simpa [podName] using congrArg String.toList same
  exact Text.decimal_injective digits

theorem extractOrdinal_podName (small : number < 2 ^ 64) :
    extractOrdinal (podName sts number) = some number := by
  have noDash : '-' ∉ (toString number).toList := by
    intro dash
    have isDigits : (toString number).toList = Nat.toDigits 10 number := by
      simp [toString, Nat.repr]
    have digit := Nat.isDigit_of_mem_toDigits (by decide) (by decide) (isDigits ▸ dash)
    cases digit
  rw [extractOrdinal, podName, Text.getLast?_split _ _ noDash, bind_some,
    parseU64Text_toString small]

theorem ordinal_of_named (small : number < 2 ^ 64)
    (named : nameOf pod = podName sts number) : ordinal pod = number := by
  rw [ordinal, named, extractOrdinal_podName small, getD_some]

theorem nameOf_built : nameOf (buildStatefulsetPod namespaceName sts number) = podName sts number :=
  rfl

theorem built_ownedBy :
    ownedBy (buildStatefulsetPod namespaceName sts number) (uidOf sts) = true := by
  have refs : ownerRefs (buildStatefulsetPod namespaceName sts number) =
    [ownerReference "apps/v1" "StatefulSet" sts] := rfl
  simp [ownedBy, refs]

theorem desired_lt (sts : Value) : desired sts < 2 ^ 64 := by
  unfold desired
  cases counted : count? sts["spec"]["replicas"] with
  | none => decide
  | some replicas => exact count?_lt counted

theorem mem_ownedPods :
    pod ∈ ownedPods sts pods ↔ (pod ∈ pods ∧ ownedBy pod (uidOf sts) = true) ∧
      hasEnded pod = false := by
  simp only [ownedPods, mem_insertionSort, mem_filter, Bool.not_eq_true']

theorem ownedPods_perm (sts : Value) (pods : List Value) :
    (ownedPods sts pods).Perm ((pods.filter (ownedBy · (uidOf sts))).filter (!hasEnded ·)) :=
  perm_insertionSort ..

theorem ownedPods_distinct (distinct : (pods.map nameOf).Nodup) :
    ((ownedPods sts pods).map nameOf).Nodup := by
  have same := ((ownedPods_perm sts pods).map nameOf).nodup_iff
  refine same.mpr (distinct.sublist ?_)
  exact (filter_sublist.trans filter_sublist).map _

/-- A Pod that runs, is ready and is not on its way out. -/
def Up (pod : Value) : Prop :=
  isDeleting pod = false ∧ textOf pod["status"]["phase"] = "Running" ∧ isPodReady pod = true

instance (pod : Value) : Decidable (Up pod) := inferInstanceAs (Decidable (_ ∧ _))

/-- The Pods that have not ended are the first ordinals; all but the last are up, and the last is up
if it is ready. -/
structure Orderly (sts : Value) (owned : List Value) : Prop where
  first : owned.map nameOf = (List.range owned.length).map (podName sts)
  earlier : ∀ pod ∈ owned.dropLast, Up pod
  last : ∀ pod ∈ owned.getLast?, isPodReady pod = true → Up pod

theorem nextCall_create {owned : List Value}
    (creates : nextCall namespaceName sts owned = some (.create pod)) :
    owned.length < desired sts ∧ (∀ last ∈ owned.getLast?, isPodReady last = true) ∧
      pod = buildStatefulsetPod namespaceName sts owned.length := by
  unfold nextCall at creates
  split_ifs at creates with few waits many
  · refine ⟨few, fun last isLast => ?_, (Call.create.inj (some.inj creates)).symm⟩
    rw [mem_def.mp isLast] at waits
    simpa using waits
  · split at creates
    · split_ifs at creates
      cases creates
    · cases creates

theorem Up.not_hasEnded (up : Up pod) : hasEnded pod = false := by
  obtain ⟨-, running, -⟩ := up
  unfold textOf at running
  cases phase : pod["status"]["phase"].asStr? with
  | none => simp [phase] at running
  | some text =>
    obtain rfl : text = "Running" := by simpa [phase] using running
    simp [hasEnded, phase]

/-- The Pods of the ordinals below are in the view, and up. -/
def PrefixUp (sts : Value) (pods : List Value) (bound : Nat) : Prop :=
  ∀ number < bound, ∃ pod ∈ pods, ownedBy pod (uidOf sts) = true ∧ nameOf pod = podName sts number ∧
    Up pod

instance (sts : Value) (pods : List Value) (bound : Nat) : Decidable (PrefixUp sts pods bound) :=
  inferInstanceAs (Decidable (∀ number < bound, ∃ pod ∈ pods, _))

theorem Orderly.prefixUp (orderly : Orderly sts (ownedPods sts pods))
    (ready : ∀ last ∈ (ownedPods sts pods).getLast?, isPodReady last = true) :
    PrefixUp sts pods (ownedPods sts pods).length := by
  intro number below
  have member : podName sts number ∈ (ownedPods sts pods).map nameOf := by
    rw [orderly.first]
    exact mem_map_of_mem (mem_range.mpr below)
  have ⟨pod, owned, named⟩ := mem_map.mp member
  obtain ⟨⟨inView, isOwned⟩, -⟩ := mem_ownedPods.mp owned
  refine ⟨pod, inView, isOwned, named, ?_⟩
  rcases eq_nil_or_concat (ownedPods sts pods) with none | ⟨front, last, whole⟩
  · rw [none] at owned
    cases owned
  · have isLast : last ∈ (ownedPods sts pods).getLast? := by simp [whole]
    rw [whole, concat_eq_append] at owned
    rcases mem_append.mp owned with inFront | atEnd
    · exact orderly.earlier pod (by simpa [whole] using inFront)
    · obtain rfl := mem_singleton.mp atEnd
      exact orderly.last pod isLast (ready pod isLast)

theorem names_of_prefixUp (few : (ownedPods sts pods).length < 2 ^ 64)
    (up : PrefixUp sts pods (ownedPods sts pods).length) :
    (ownedPods sts pods).map nameOf = (range (ownedPods sts pods).length).map (podName sts) := by
  set owned := ownedPods sts pods with isOwned
  have wanted : ((range owned.length).map (podName sts)).Nodup :=
    nodup_range.map (podName_injective sts)
  have there : (range owned.length).map (podName sts) ⊆ owned.map nameOf := by
    intro name member
    obtain ⟨number, below, rfl⟩ := mem_map.mp member
    have ⟨pod, inView, isOwned, named, isUp⟩ := up number (mem_range.mp below)
    rw [← named]
    exact mem_map_of_mem (mem_ownedPods.mpr ⟨⟨inView, isOwned⟩, isUp.not_hasEnded⟩)
  have same : (owned.map nameOf).Perm ((range owned.length).map (podName sts)) :=
    ((subperm_of_subset wanted there).perm_of_length_le (by simp)).symm
  have numbered :
      ∀ name ∈ owned.map nameOf, ∃ number < owned.length, name = podName sts number := by
    intro name member
    obtain ⟨number, below, rfl⟩ := mem_map.mp (same.mem_iff.mp member)
    exact ⟨number, mem_range.mp below, rfl⟩
  have ordinals :
      ∀ number < owned.length, (extractOrdinal (podName sts number)).getD 0 = number := by
    intro number below
    rw [extractOrdinal_podName (by omega), getD_some]
  have sorted : (owned.map nameOf).Pairwise fun left right =>
      (extractOrdinal left).getD 0 ≤ (extractOrdinal right).getD 0 :=
    pairwise_map.mpr (by exact pairwise_insertionSort _ _)
  have counted : ((range owned.length).map (podName sts)).Pairwise fun left right =>
      (extractOrdinal left).getD 0 ≤ (extractOrdinal right).getD 0 := by
    refine pairwise_map.mpr (List.Pairwise.imp_of_mem ?_ pairwise_lt_range)
    intro first second isFirst isSecond below
    rw [ordinals first (mem_range.mp isFirst), ordinals second (mem_range.mp isSecond)]
    exact Nat.le_of_lt below
  refine Perm.eq_of_pairwise ?_ sorted counted same
  intro left right isLeft isRight lower upper
  obtain ⟨first, firstBelow, rfl⟩ := numbered left isLeft
  obtain ⟨second, secondBelow, rfl⟩ := numbered right (same.mem_iff.mpr isRight)
  rw [ordinals first firstBelow, ordinals second secondBelow] at lower upper
  rw [Nat.le_antisymm lower upper]

theorem PrefixUp.orderly (distinct : (pods.map nameOf).Nodup)
    (few : (ownedPods sts pods).length < 2 ^ 64)
    (up : PrefixUp sts pods (ownedPods sts pods).length) : Orderly sts (ownedPods sts pods) := by
  have names := names_of_prefixUp few up
  have all : ∀ pod ∈ ownedPods sts pods, Up pod := by
    intro pod owned
    have member := mem_map_of_mem (f := nameOf) owned
    rw [names] at member
    have ⟨number, below, named⟩ := mem_map.mp member
    obtain ⟨other, inView, -, otherNamed, isUp⟩ := up number (mem_range.mp below)
    have inViewToo := (mem_ownedPods.mp owned).1.1
    rwa [inj_on_of_nodup_map distinct inViewToo inView (named.symm.trans otherNamed.symm)]
  exact ⟨names, fun pod member => all pod (mem_of_mem_dropLast member),
    fun pod isLast _ => all pod (mem_of_getLast? (mem_def.mp isLast))⟩

theorem creates_in_order (namespaceName : String) (sts : Value) (pods : List Value)
    (distinct : (pods.map nameOf).Nodup) (pass : Pass) (number : Nat)
    (ran : reconcileStatefulset namespaceName sts pods = .ok (some pass))
    (creates : pass.call = some (.create (buildStatefulsetPod namespaceName sts number))) :
    PrefixUp sts pods number ↔ Orderly sts (ownedPods sts pods) := by
  have called : nextCall namespaceName sts (ownedPods sts pods) = pass.call := by
    unfold reconcileStatefulset at ran
    split at ran
    · cases ran
    · split_ifs at ran
      · cases ran
      · rw [← some.inj (Except.ok.inj ran)]
  have ⟨below, ready, built⟩ := nextCall_create (called.trans creates)
  have isNext : number = (ownedPods sts pods).length :=
    podName_injective sts (congrArg nameOf built)
  have few := Nat.lt_trans below (desired_lt sts)
  rw [isNext]
  exact ⟨PrefixUp.orderly distinct few, fun orderly => orderly.prefixUp ready⟩

/-- A StatefulSet `web` of so many replicas. -/
def web (replicas : Nat) : Value :=
  .object [("metadata", .object [("name", .string "web"), ("uid", .string "u")]),
    ("spec", .object [("replicas", .number replicas)])]

/-- A Pod of it that runs. -/
def webPod (number : Nat) (ready : Bool) : Value :=
  .object [("metadata", .object [("name", .string (podName (web 0) number)),
      ("ownerReferences", .array [ownerReference "apps/v1" "StatefulSet" (web 0)])]),
    ("status", .object [("phase", .string "Running"), ("conditions", .array [.object [
      ("type", .string "Ready"), ("status", .string (if ready then "True" else "False"))]])])]

theorem creates_in_order_third :
    PrefixUp (web 3) [webPod 1 true, webPod 0 true] 2 :=
  (creates_in_order "default" (web 3) [webPod 1 true, webPod 0 true] (by decide +kernel) _ 2 rfl
    (by decide +kernel)).mpr ⟨by decide +kernel, by decide +kernel, by decide +kernel⟩

theorem creates_after_unready :
    (∃ pass, reconcileStatefulset "default" (web 3) [webPod 0 false, webPod 1 true] =
        .ok (some pass) ∧
      pass.call = some (.create (buildStatefulsetPod "default" (web 3) 2))) ∧
    ¬PrefixUp (web 3) [webPod 0 false, webPod 1 true] 2 :=
  ⟨⟨_, rfl, by decide +kernel⟩, by decide +kernel⟩

end

/- Pass after pass of a StatefulSet whose Pods start when they are made and go when they are
deleted. -/

open Transition

/-- What becomes of a Pod that was made: it is ready. -/
structure Started where
  become : Value → Value
  metadata : ∀ pod, (become pod)["metadata"] = pod["metadata"]
  ready : ∀ pod, isPodReady (become pod) = true
  running : ∀ pod, hasEnded (become pod) = false

section

variable (started : Started) (namespaceName : String) (sts : Value) (pods : List Value)

/-- A Pod is not made over one that has its name. -/
def applyCall : Option Call → List Value
  | some (.create pod) =>
    if nameOf pod ∈ pods.map nameOf then pods else pods ++ [started.become pod]
  | some (.delete pod) => pods.filter (nameOf · ≠ nameOf pod)
  | none => pods

/-- The Pods of the namespace after a pass, when what it made is ready and what it deleted is
gone. -/
def round : List Value :=
  match reconcileStatefulset namespaceName sts pods with
  | .ok (some pass) => applyCall started pods pass.call
  | _ => pods

/-- The Pods that have not ended are the ordinals below the count. -/
def Exact : Prop := (ownedPods sts pods).map nameOf = (List.range (desired sts)).map (podName sts)

instance : Decidable (Exact sts pods) := inferInstanceAs (Decidable (_ = _))

/-- The first Pods that have not ended, as many as are wanted, are the first ordinals; those after
them can be deleted. If there are too few, the last is ready, and no Pod has a name that is still to
be made. -/
structure Repairable : Prop where
  first : ((ownedPods sts pods).take (desired sts)).map nameOf =
    (List.range (min (ownedPods sts pods).length (desired sts))).map (podName sts)
  ready : (ownedPods sts pods).length < desired sts →
    ∀ last ∈ (ownedPods sts pods).getLast?, isPodReady last = true
  free : ∀ number < desired sts, (ownedPods sts pods).length ≤ number →
    podName sts number ∉ pods.map nameOf
  deletable : ∀ pod ∈ (ownedPods sts pods).drop (desired sts),
    textOf pod["status"]["phase"] ≠ "Terminating" ∧ nameOf pod ≠ ""

def distance : Nat :=
  ((ownedPods sts pods).length - desired sts) + (desired sts - (ownedPods sts pods).length)

end

variable {started : Started} {namespaceName : String} {sts : Value} {pods : List Value}

theorem Exact.length (exact : Exact sts pods) : (ownedPods sts pods).length = desired sts := by
  simpa using congrArg List.length exact

/-- With enough Pods only the names of the first and the end of the others matter. -/
theorem repairable_iff_of_many (many : desired sts ≤ (ownedPods sts pods).length) :
    Repairable sts pods ↔
    ((ownedPods sts pods).take (desired sts)).map nameOf = (range (desired sts)).map (podName sts) ∧
      ∀ pod ∈ (ownedPods sts pods).drop (desired sts),
        textOf pod["status"]["phase"] ≠ "Terminating" ∧ nameOf pod ≠ "" := by
  constructor
  · intro repairable
    have first := repairable.first
    rw [Nat.min_eq_right many] at first
    exact ⟨first, repairable.deletable⟩
  · exact fun ⟨first, deletable⟩ => ⟨by rwa [Nat.min_eq_right many], by omega, by omega, deletable⟩

theorem repairable_iff_exact (enough : (ownedPods sts pods).length = desired sts) :
    Repairable sts pods ↔ Exact sts pods := by
  rw [repairable_iff_of_many enough.ge, take_of_length_le enough.le, drop_of_length_le enough.le]
  simp [Exact]

theorem ownedPods_filter (keep : Value → Bool) :
    ownedPods sts (pods.filter keep) = (ownedPods sts pods).filter keep := by
  unfold ownedPods
  rw [StableSort.filter_insertionSort]
  simp only [filter_filter, Bool.and_comm, Bool.and_assoc]

theorem nameOf_become (pod : Value) : nameOf (started.become pod) = nameOf pod := by
  rw [nameOf, started.metadata, nameOf]

/-- The Pod that is made when there are too few. -/
abbrev made (started : Started) (namespaceName : String) (sts : Value) (pods : List Value) :
    Value :=
  started.become (buildStatefulsetPod namespaceName sts (ownedPods sts pods).length)

theorem nameOf_made :
    nameOf (made started namespaceName sts pods) = podName sts (ownedPods sts pods).length := by
  rw [made, nameOf_become, nameOf_built]

theorem candidates_made :
    ((pods ++ [made started namespaceName sts pods]).filter (ownedBy · (uidOf sts))).filter
        (!hasEnded ·) =
      (pods.filter (ownedBy · (uidOf sts))).filter (!hasEnded ·) ++
        [made started namespaceName sts pods] := by
  have owned : ownedBy (made started namespaceName sts pods) (uidOf sts) = true := by
    rw [ownedBy, ownerRefs, started.metadata]
    exact built_ownedBy
  simp [filter_append, owned, started.running]

theorem length_made :
    (ownedPods sts (pods ++ [made started namespaceName sts pods])).length =
      (ownedPods sts pods).length + 1 := by
  have after := (ownedPods_perm sts (pods ++ [made started namespaceName sts pods])).length_eq
  have before := (ownedPods_perm sts pods).length_eq
  rw [candidates_made, length_append, length_singleton] at after
  omega

theorem ownedPods_made (below : (ownedPods sts pods).length < 2 ^ 64)
    (first : (ownedPods sts pods).map nameOf =
      (range (ownedPods sts pods).length).map (podName sts)) :
    ownedPods sts (pods ++ [made started namespaceName sts pods]) =
      ownedPods sts pods ++ [made started namespaceName sts pods] := by
  have isNext : ordinal (made started namespaceName sts pods) = (ownedPods sts pods).length :=
    ordinal_of_named below nameOf_made
  rw [ownedPods, candidates_made]
  refine StableSort.insertionSort_concat fun pod member => ?_
  have named := mem_map_of_mem (f := nameOf) ((ownedPods_perm sts pods).mem_iff.mpr member)
  rw [first] at named
  obtain ⟨number, inRange, same⟩ := mem_map.mp named
  have lower := mem_range.mp inRange
  rw [ordinal_of_named (by omega) same.symm, isNext]
  omega

section

variable (fresh : podName sts (ownedPods sts pods).length ∉ pods.map nameOf)

include fresh

theorem ownedPods_unmade :
    ownedPods sts pods = (ownedPods sts (pods ++ [made started namespaceName sts pods])).filter
      (nameOf · ≠ podName sts (ownedPods sts pods).length) := by
  rw [← ownedPods_filter, filter_append]
  have before : pods.filter (nameOf · ≠ podName sts (ownedPods sts pods).length) = pods := by
    refine filter_eq_self.mpr fun pod member => decide_eq_true ?_
    intro same
    exact fresh (same ▸ mem_map_of_mem member)
  have last : [made started namespaceName sts pods].filter
      (nameOf · ≠ podName sts (ownedPods sts pods).length) = [] := by
    simp [nameOf_made]
  rw [before, last, append_nil]

theorem names_unmade
    (first : (ownedPods sts (pods ++ [made started namespaceName sts pods])).map nameOf =
      (range ((ownedPods sts pods).length + 1)).map (podName sts)) :
    (ownedPods sts pods).map nameOf = (range (ownedPods sts pods).length).map (podName sts) := by
  set count := (ownedPods sts pods).length with isCount
  have others :
      ∀ name ∈ (range count).map (podName sts), decide (name ≠ podName sts count) = true := by
    intro name member
    obtain ⟨number, inRange, rfl⟩ := mem_map.mp member
    have below := mem_range.mp inRange
    refine decide_eq_true fun same => ?_
    have := podName_injective sts same
    omega
  calc (ownedPods sts pods).map nameOf
      = ((ownedPods sts (pods ++ [made started namespaceName sts pods])).filter
          (nameOf · ≠ podName sts count)).map nameOf := congrArg _ (ownedPods_unmade fresh)
    _ = ((ownedPods sts (pods ++ [made started namespaceName sts pods])).map nameOf).filter
          (· ≠ podName sts count) := by
        rw [filter_map]
        rfl
    _ = ((range count).map (podName sts) ++ [podName sts count]).filter
          (· ≠ podName sts count) := by
        rw [first, range_succ, map_append, map_singleton]
    _ = (range count).map (podName sts) := by
        rw [filter_append, filter_eq_self.mpr others]
        simp

theorem repairable_made (below : (ownedPods sts pods).length < desired sts)
    (ready : ∀ last ∈ (ownedPods sts pods).getLast?, isPodReady last = true) :
    Repairable sts (pods ++ [made started namespaceName sts pods]) ↔ Repairable sts pods := by
  have small := desired_lt sts
  have length : (ownedPods sts (pods ++ [made started namespaceName sts pods])).length =
      (ownedPods sts pods).length + 1 := length_made
  have whole : (ownedPods sts pods).take (desired sts) = ownedPods sts pods :=
    take_of_length_le (by omega)
  have wholeAfter :
    (ownedPods sts (pods ++ [made started namespaceName sts pods])).take (desired sts) =
      ownedPods sts (pods ++ [made started namespaceName sts pods]) :=
    take_of_length_le (by omega)
  constructor
  · intro after
    refine ⟨?_, fun _ => ready, fun number inside unmade => ?_, ?_⟩
    · have first := after.first
      rw [wholeAfter, length, Nat.min_eq_left (by omega)] at first
      rw [whole, Nat.min_eq_left (by omega)]
      exact names_unmade fresh first
    · rcases Nat.eq_or_lt_of_le unmade with same | later
      · exact same ▸ fresh
      · have absent := after.free number inside (by omega)
        simp only [map_append, mem_append, not_or] at absent
        exact absent.1
    · rw [drop_of_length_le (by omega)]
      simp
  · intro before
    have first := before.first
    rw [whole, Nat.min_eq_left (by omega)] at first
    have appended : ownedPods sts (pods ++ [made started namespaceName sts pods]) =
        ownedPods sts pods ++ [made started namespaceName sts pods] :=
          ownedPods_made (by omega) first
    refine ⟨?_, ?_, fun number inside unmade => ?_, ?_⟩
    · rw [wholeAfter, length, Nat.min_eq_left (by omega), appended, map_append, first,
        range_succ, map_append, map_singleton, map_singleton, nameOf_made]
    · intro _ last isLast
      rw [appended, getLast?_append] at isLast
      obtain rfl : made started namespaceName sts pods = last := by simpa using isLast
      exact started.ready _
    · rw [map_append, mem_append, not_or, map_singleton, mem_singleton, nameOf_made]
      refine ⟨before.free number inside (by omega), fun same => ?_⟩
      have := podName_injective sts same
      omega
    · rw [drop_of_length_le (by omega)]
      simp

end

section

variable (distinct : (pods.map nameOf).Nodup) {front : List Value} {last : Value}

include distinct

theorem ownedPods_deleted (owned : ownedPods sts pods = front ++ [last]) :
    ownedPods sts (pods.filter (nameOf · ≠ nameOf last)) = front := by
  have names : ((front ++ [last]).map nameOf).Nodup := owned ▸ ownedPods_distinct distinct
  rw [map_append, map_singleton] at names
  have apart := disjoint_of_nodup_append names
  have kept : front.filter (nameOf · ≠ nameOf last) = front := by
    refine filter_eq_self.mpr fun pod member => decide_eq_true ?_
    intro same
    exact apart (mem_map_of_mem member) (mem_singleton.mpr same)
  rw [ownedPods_filter, owned, filter_append, kept]
  simp

theorem repairable_deleted
    (owned : ownedPods sts pods = front ++ [last]) (many : desired sts ≤ front.length)
    (deletable : textOf last["status"]["phase"] ≠ "Terminating" ∧ nameOf last ≠ "") :
    Repairable sts (pods.filter (nameOf · ≠ nameOf last)) ↔ Repairable sts pods := by
  have after : ownedPods sts (pods.filter (nameOf · ≠ nameOf last)) = front :=
    ownedPods_deleted distinct owned
  have taken : (front ++ [last]).take (desired sts) = front.take (desired sts) :=
    take_append_of_le_length many
  have dropped : (front ++ [last]).drop (desired sts) = front.drop (desired sts) ++ [last] :=
    drop_append_of_le_length many
  rw [repairable_iff_of_many (by rwa [after]), repairable_iff_of_many (by simp [owned]; omega),
    after, owned, taken, dropped]
  refine and_congr_right fun _ => ⟨fun rest => forall_mem_concat rest deletable, ?_⟩
  exact fun rest pod member => rest pod (mem_append_left _ member)

/-- A round changes nothing, and then there is nothing to repair or no way to; or it brings the
count nearer, and what could be repaired still can. -/
theorem round_advances (isRound : round started namespaceName sts pods =
      applyCall started pods (nextCall namespaceName sts (ownedPods sts pods))) :
    (round started namespaceName sts pods = pods ∧ (Repairable sts pods ↔ Exact sts pods)) ∨
    (((round started namespaceName sts pods).map nameOf).Nodup ∧
      distance sts (round started namespaceName sts pods) < distance sts pods ∧
      (Repairable sts (round started namespaceName sts pods) ↔ Repairable sts pods)) := by
  have neither : ¬Repairable sts pods → (ownedPods sts pods).length ≠ desired sts →
      (Repairable sts pods ↔ Exact sts pods) := fun broken short =>
    ⟨fun repairable => absurd repairable broken, fun exact => absurd exact.length short⟩
  rw [isRound, nextCall]
  rcases Nat.lt_trichotomy (ownedPods sts pods).length (desired sts) with few | enough | many
  · rw [if_pos few]
    by_cases waits : (ownedPods sts pods).getLast?.any (!isPodReady ·) = true
    · -- the last Pod is not ready, and nothing else is looked at
      rw [if_pos waits]
      refine .inl ⟨rfl, neither (fun repairable => ?_) (by omega)⟩
      have ⟨last, isLast, unready⟩ := (Option.any_eq_true _ _).mp waits
      rw [repairable.ready few last isLast] at unready
      cases unready
    · rw [if_neg waits, applyCall, nameOf_built]
      by_cases taken : podName sts (ownedPods sts pods).length ∈ pods.map nameOf
      · rw [if_pos taken]
        exact .inl ⟨rfl, neither (fun repairable => repairable.free _ few le_rfl taken) (by omega)⟩
      · rw [if_neg taken]
        have ready : ∀ last ∈ (ownedPods sts pods).getLast?, isPodReady last = true := by
          intro last isLast
          rw [Option.mem_def.mp isLast] at waits
          simpa using waits
        refine .inr ⟨?_, ?_, repairable_made taken few ready⟩
        · rw [map_append, map_singleton, nameOf_made]
          exact concat_eq_append ▸ distinct.concat taken
        · rw [distance, distance, length_made]
          omega
  · rw [if_neg (by omega), if_neg (by omega)]
    exact .inl ⟨rfl, repairable_iff_exact enough⟩
  · rw [if_neg (by omega), if_pos many]
    rcases eq_nil_or_concat (ownedPods sts pods) with none | ⟨front, last, owned⟩
    · rw [none] at many
      cases many
    · rw [concat_eq_append] at owned
      have length : (ownedPods sts pods).length = front.length + 1 := by simp [owned]
      have isLast : (ownedPods sts pods).getLast? = some last := by simp [owned]
      rw [isLast]
      dsimp only
      by_cases deletable : textOf last["status"]["phase"] ≠ "Terminating" ∧ nameOf last ≠ ""
      · rw [if_pos deletable, applyCall]
        refine .inr ⟨distinct.sublist (filter_sublist.map _), ?_,
          repairable_deleted distinct owned (by omega) deletable⟩
        rw [distance, distance, ownedPods_deleted distinct owned]
        omega
      · rw [if_neg deletable]
        refine .inl ⟨rfl, neither (fun repairable => deletable ?_) (by omega)⟩
        refine repairable.deletable last ?_
        rw [owned, drop_append_of_le_length (by omega)]
        simp

end

theorem repairs_itself (started : Started) (namespaceName : String) (sts : Value)
    (pods : List Value) {name : String} (named : sts["metadata"]["name"].asStr? = some name)
    (alive : isDeleting sts = false) (distinct : (pods.map nameOf).Nodup) :
    Settles (round started namespaceName sts) (Exact sts) pods ↔ Repairable sts pods := by
  refine Transition.settles_iff (distance sts) (fun _ apart => round_advances apart ?_) distinct
  unfold round reconcileStatefulset
  rw [named]
  simp [alive]

/-- A Pod runs and is ready as soon as it is made. -/
def atOnce : Started where
  become pod := .object [("metadata", pod["metadata"]), ("spec", pod["spec"]),
    ("status", (webPod 0 true)["status"])]
  metadata _ := rfl
  ready _ := (by decide +kernel : isPodReady (webPod 0 true) = true)
  running _ := (by decide +kernel : hasEnded (webPod 0 true) = false)

theorem repairs_itself_from_one :
    Settles (round atOnce "default" (web 3)) (Exact (web 3)) [webPod 0 true] :=
  (repairs_itself atOnce "default" (web 3) [webPod 0 true] rfl rfl (by decide +kernel)).mpr
    ⟨by decide +kernel, fun _ => by decide +kernel, by decide +kernel, by decide +kernel⟩

theorem keeps_second :
    ¬Settles (round atOnce "default" (web 1)) (Exact (web 1)) [webPod 1 true] :=
  (Transition.settles_fixed rfl).not.mpr (by decide +kernel)

end Rustkube.StatefulSet
