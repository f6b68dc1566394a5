import Rustkube.Lib.Ledger
import Rustkube.ListSelector
import Rustkube.Metadata
import Rustkube.PodResources

namespace Rustkube.Scheduler

open Json PodResources

/-- What a node has promised. The amounts are `u64`, and sums of them wrap around. -/
@[ext]
structure NodeUsage where
  cpuMilli : UInt64
  memBytes : UInt64
  pods : UInt64
deriving DecidableEq

namespace NodeUsage

instance : Zero NodeUsage := ⟨⟨0, 0, 0⟩⟩

instance : Add NodeUsage :=
  ⟨fun left right => ⟨left.cpuMilli + right.cpuMilli, left.memBytes + right.memBytes,
    left.pods + right.pods⟩⟩

instance : Neg NodeUsage := ⟨fun usage => ⟨-usage.cpuMilli, -usage.memBytes, -usage.pods⟩⟩

instance : Sub NodeUsage :=
  ⟨fun left right => ⟨left.cpuMilli - right.cpuMilli, left.memBytes - right.memBytes,
    left.pods - right.pods⟩⟩

instance : AddCommGroup NodeUsage where
  add_assoc _ _ _ := NodeUsage.ext (UInt64.add_assoc ..) (UInt64.add_assoc ..) (UInt64.add_assoc ..)
  zero_add _ := NodeUsage.ext (UInt64.zero_add _) (UInt64.zero_add _) (UInt64.zero_add _)
  add_zero _ := NodeUsage.ext (UInt64.add_zero _) (UInt64.add_zero _) (UInt64.add_zero _)
  add_comm _ _ := NodeUsage.ext (UInt64.add_comm ..) (UInt64.add_comm ..) (UInt64.add_comm ..)
  neg_add_cancel _ :=
    NodeUsage.ext (UInt64.add_left_neg _) (UInt64.add_left_neg _) (UInt64.add_left_neg _)
  sub_eq_add_neg _ _ := NodeUsage.ext (UInt64.sub_eq_add_neg ..) (UInt64.sub_eq_add_neg ..)
    (UInt64.sub_eq_add_neg ..)
  nsmul := nsmulRec
  zsmul := zsmulRec

/-- One of the three amounts. -/
inductive Resource where
  | cpu
  | memory
  | pods
deriving DecidableEq

def amount (usage : NodeUsage) : Resource → UInt64
  | .cpu => usage.cpuMilli
  | .memory => usage.memBytes
  | .pods => usage.pods

theorem amount_sum (resource : Resource) (usages : List NodeUsage) :
    usages.sum.amount resource = (usages.map fun usage => usage.amount resource).sum := by
  induction usages with
  | nil => cases resource <;> rfl
  | cons head rest ih =>
    rw [List.map_cons, List.sum_cons, List.sum_cons, ← ih]
    cases resource <;> rfl

end NodeUsage

variable {pod other : Value}

section

variable (quantities : Quantities)

/-- Amounts that are plain numbers. -/
def plainNumbers : Quantities :=
  let number (text : String) : UInt64 := .ofNat ((parseU64Text text).getD 0)
  ⟨number, number, fun _ => ""⟩

def cpuOf (value : Value) : UInt64 := (value.asStr?.map quantities.cpuMillis).getD 0

def memoryOf (value : Value) : UInt64 := (value.asStr?.map quantities.bytes).getD 0

/-- What a container asks for under one name. -/
def requested (key : String) (value : Value) : UInt64 :=
  if key = "cpu" then cpuOf quantities value
  else if key = "memory" then memoryOf quantities value
  else 0

/-- The loop over `status.containerStatuses`: what a container was last given is a floor. -/
def heldByStatus (amounts : UInt64 × UInt64) (status : Value) : UInt64 × UInt64 :=
  ["resources", "allocatedResources"].foldl (fun amounts field =>
    let requests := status[field]["requests"]
    if requests.isNull then amounts
    else (max amounts.1 (cpuOf quantities requests["cpu"]),
      max amounts.2 (memoryOf quantities requests["memory"]))) amounts

/-- Milli-CPU and bytes. Requests of the pod as a whole win when there are any. -/
def requestsWithoutOverhead (pod : Value) : UInt64 × UInt64 :=
  let podLevel := pod["spec"]["resources"]["requests"]
  let cpu := cpuOf quantities podLevel["cpu"]
  let memory := memoryOf quantities podLevel["memory"]
  if cpu ≠ 0 ∨ memory ≠ 0 then (cpu, memory)
  else
    let total := PodResources.containersTotal (requested quantities) "requests" pod
    (items pod["status"]["containerStatuses"]).foldl (heldByStatus quantities)
      ((total.get? "cpu").getD 0, (total.get? "memory").getD 0)

def podRequests (pod : Value) : UInt64 × UInt64 :=
  let amounts := requestsWithoutOverhead quantities pod
  let overhead := pod["spec"]["overhead"]
  (amounts.1 + cpuOf quantities overhead["cpu"], amounts.2 + memoryOf quantities overhead["memory"])

/-- What `charge` adds to a node. A VirtualMachineInstance takes no pod slot. -/
def usageOf (vm : Bool) (pod : Value) : NodeUsage :=
  let amounts := podRequests quantities pod
  ⟨amounts.1, amounts.2, if vm then 0 else 1⟩

/-- The fields that requests are read from. -/
structure SameRequests (pod other : Value) : Prop where
  spec : ∀ field ∈ ["containers", "initContainers", "resources", "overhead"],
    other["spec"][field] = pod["spec"][field]
  statuses : other["status"]["containerStatuses"] = pod["status"]["containerStatuses"]

variable {quantities}

theorem SameRequests.trans {middle : Value} (first : SameRequests pod middle)
    (second : SameRequests middle other) : SameRequests pod other :=
  ⟨fun field member => (second.spec field member).trans (first.spec field member),
    second.statuses.trans first.statuses⟩

theorem SameRequests.usageOf_eq (same : SameRequests pod other) (vm : Bool) :
    usageOf quantities vm other = usageOf quantities vm pod := by
  simp only [usageOf, podRequests, requestsWithoutOverhead, containersTotal,
    same.spec "containers" (by decide), same.spec "initContainers" (by decide),
    same.spec "resources" (by decide), same.spec "overhead" (by decide), same.statuses]

variable {inner : List String}

theorem SameRequests.of_spec (within : Value.Within "spec" inner pod other)
    (apart : ∀ field ∈ ["containers", "initContainers", "resources", "overhead"], field ∉ inner) :
    SameRequests pod other :=
  ⟨fun field member => within.inside field (apart field member), by
    rw [within.outside "status" (by decide)]⟩

theorem SameRequests.of_status
    (within : Value.Within "status" inner pod other) (apart : "containerStatuses" ∉ inner) :
    SameRequests pod other :=
  ⟨fun field _ => by rw [within.outside "spec" (by decide)], within.inside _ apart⟩

theorem SameRequests.of_metadata
    (within : Value.Within "metadata" inner pod other) : SameRequests pod other :=
  ⟨fun field _ => by rw [within.outside "spec" (by decide)], by
    rw [within.outside "status" (by decide)]⟩

end

section

def asU64? (value : Value) : Option UInt64 :=
  (value.asInt?.filter fun number => 0 ≤ number && number < 2 ^ 64).map fun number =>
    .ofNat number.toNat

/-- `status.nodeName` is the scheduler's answer, `spec.nodeName` a person's. -/
def nodeOf (vmi : Value) : Option String :=
  (vmi["status"]["nodeName"].asStr?.filter (· ≠ "")).or
    (vmi["spec"]["nodeName"].asStr?.filter (· ≠ ""))

def isTerminal (object : Value) : Bool :=
  object["status"]["phase"].asStr?.any fun phase => phase = "Succeeded" ∨ phase = "Failed"

/-- Cores × sockets × threads, each of them one if it is not set. -/
def vcpus (vmi : Value) : UInt64 :=
  let cpu := vmi["spec"]["domain"]["cpu"]
  let count (value : Value) := max ((asU64? value).getD 1) 1
  count cpu["cores"] * count cpu["sockets"] * count cpu["threads"]

variable (quantities : Quantities)

/-- What a machine costs a node, in milli-CPU and bytes. -/
def requests (vmi : Value) : UInt64 × UInt64 :=
  let domain := vmi["spec"]["domain"]
  let stated := domain["resources"]["requests"]
  let memory := ((domain["memory"]["guest"].asStr?.or stated["memory"].asStr?).or
    domain["resources"]["limits"]["memory"].asStr?).map quantities.bytes
  let cpu := match stated["cpu"].asStr? with
    | some text => quantities.cpuMillis text
    | none =>
      if domain["cpu"]["dedicatedCpuPlacement"].asBool?.getD false then vcpus vmi * 1000 else 0
  (cpu, memory.getD 0)

/-- The machine, shaped as the pod that the filters know how to place. -/
def schedulingShim (vmi : Value) : Value :=
  let amounts := requests quantities vmi
  let spec : Value := .object [("containers", .array [.object [("name", .string "vm"),
    ("resources", .object [("requests", .object [
      ("cpu", .string (toString amounts.1.toNat ++ "m")),
      ("memory", .string (toString amounts.2.toNat))])])]])]
  let copied :=
    ["nodeSelector", "affinity", "tolerations", "priorityClassName", "schedulerName"].foldl
      (fun spec key => if vmi["spec"][key].isNull then spec else spec.insert key vmi["spec"][key])
      spec
  .object [("apiVersion", .string "v1"), ("kind", .string "Pod"),
    ("metadata", .object [("name", vmi["metadata"]["name"]),
      ("namespace", vmi["metadata"]["namespace"]), ("labels", vmi["metadata"]["labels"])]),
    ("spec", copied), ("status", .object [("phase", .string "Pending")])]

variable {quantities}

theorem schedulingShim_sameRequests {vmi : Value} (same : other["spec"] = vmi["spec"]) :
    SameRequests (schedulingShim quantities vmi) (schedulingShim quantities other) := by
  have amounts : requests quantities other = requests quantities vmi := by
    unfold requests vcpus
    rw [same]
  constructor
  · intro field _
    simp only [schedulingShim, same, amounts]
    rfl
  · rfl

end

variable (quantities : Quantities)

/-- The pods a node may hold. -/
def podLimit (allocatable : Value) : Option Nat :=
  match allocatable["pods"] with
  | .string text => parseU64Text (ListSelector.trim text)
  | .number number => if 0 ≤ number ∧ number < 2 ^ 64 then some number.toNat else none
  | _ => none

def podCountFilter (node : Value) (used : NodeUsage) : Except String Unit :=
  match podLimit node["status"]["allocatable"] with
  | some limit => if limit ≤ used.pods.toNat then throw "Too many pods" else pure ()
  | none => pure ()

/-- `free = allocatable.saturating_sub(used)`, and `reason` if that is less than is asked for. -/
def roomFor (allocatable : Option UInt64) (used asked : UInt64) (reason : String) :
    Except String Unit :=
  match allocatable with
  | some amount => if amount.toNat - used.toNat < asked.toNat then throw reason else pure ()
  | none => pure ()

def resourceFitFilter (pod node : Value) (used : NodeUsage) : Except String Unit := do
  let asked := podRequests quantities pod
  if asked.1 = 0 ∧ asked.2 = 0 then return
  let allocatable := node["status"]["allocatable"]
  if allocatable.isNull then return
  roomFor (allocatable["cpu"].asStr?.map quantities.cpuMillis) used.cpuMilli asked.1
    "Insufficient cpu"
  roomFor (allocatable["memory"].asStr?.map quantities.bytes) used.memBytes asked.2
    "Insufficient memory"

/-- What `allocatable` limits a resource to. -/
def limit (allocatable : Value) : NodeUsage.Resource → Option Nat
  | .cpu => (allocatable["cpu"].asStr?.map quantities.cpuMillis).map UInt64.toNat
  | .memory => (allocatable["memory"].asStr?.map quantities.bytes).map UInt64.toNat
  | .pods => podLimit allocatable

/-- What a workload asks of a node fits on top of what is used, in every resource that is limited
there. -/
def Room (allocatable : Value) (used asked : NodeUsage) : Prop :=
  ∀ resource bound, limit quantities allocatable resource = some bound →
    asked.amount resource = 0 ∨
      (used.amount resource).toNat + (asked.amount resource).toNat ≤ bound

variable {quantities} {used : NodeUsage} {node : Value} {bound : Nat}

theorem roomFor_ok {allocatable : Option UInt64} {used asked : UInt64} {reason : String}
    (passed : roomFor allocatable used asked reason = .ok ())
    (limited : allocatable.map UInt64.toNat = some bound) :
    asked = 0 ∨ used.toNat + asked.toNat ≤ bound := by
  obtain ⟨amount, rfl, rfl⟩ := Option.map_eq_some_iff.mp limited
  by_cases nothing : asked.toNat = 0
  · exact .inl (UInt64.toNat_inj.mp nothing)
  · unfold roomFor at passed
    dsimp only at passed
    split_ifs at passed with short
    exact .inr (by omega)

theorem podCountFilter_ok (passed : podCountFilter node used = .ok ())
    (limited : podLimit node["status"]["allocatable"] = some bound) :
    used.pods.toNat + 1 ≤ bound := by
  unfold podCountFilter at passed
  rw [limited] at passed
  dsimp only at passed
  split_ifs at passed with full
  omega

theorem resourceFitFilter_ok (passed : resourceFitFilter quantities pod node used = .ok ()) :
    (podRequests quantities pod = (0, 0)) ∨ node["status"]["allocatable"].isNull = true ∨
      (roomFor (node["status"]["allocatable"]["cpu"].asStr?.map quantities.cpuMillis) used.cpuMilli
        (podRequests quantities pod).1 "Insufficient cpu" = .ok () ∧
      roomFor (node["status"]["allocatable"]["memory"].asStr?.map quantities.bytes) used.memBytes
        (podRequests quantities pod).2 "Insufficient memory" = .ok ()) := by
  unfold resourceFitFilter at passed
  dsimp only at passed
  split_ifs at passed with nothing absent
  · exact .inl (Prod.ext nothing.1 nothing.2)
  · exact .inr (.inl absent)
  · have ⟨_, cpu, memory⟩ := bind_eq_ok.mp passed
    exact .inr (.inr ⟨cpu, memory⟩)

theorem limit_null (resource : NodeUsage.Resource) {allocatable : Value}
    (absent : allocatable.isNull = true) : limit quantities allocatable resource = none := by
  cases allocatable with
  | null => cases resource <;> rfl
  | _ => cases absent

theorem room_of_filters {vm : Bool} (fit : resourceFitFilter quantities pod node used = .ok ())
    (count : vm = true ∨ podCountFilter node used = .ok ()) :
    Room quantities node["status"]["allocatable"] used (usageOf quantities vm pod) := by
  intro resource bound limited
  cases resource with
  | pods =>
    rcases count with rfl | passed
    · exact .inl rfl
    · cases vm with
      | true => exact .inl rfl
      | false => exact .inr (podCountFilter_ok passed limited)
  | cpu =>
    rcases resourceFitFilter_ok fit with nothing | absent | ⟨cpu, _⟩
    · exact .inl (congrArg Prod.fst nothing)
    · cases (limit_null _ absent).symm.trans limited
    · exact roomFor_ok cpu limited
  | memory =>
    rcases resourceFitFilter_ok fit with nothing | absent | ⟨_, memory⟩
    · exact .inl (congrArg Prod.snd nothing)
    · cases (limit_null _ absent).symm.trans limited
    · exact roomFor_ok memory limited

end Rustkube.Scheduler
