import Rustkube.Request
import Rustkube.PodResources

namespace Rustkube.Quota

open List Json PodResources

/-- Integer amounts by resource name: milli-CPU, bytes, or a count. They are `i128` in the source,
and never negative there. -/
abbrev Usage := Tally Nat

def isCpu (key : String) : Bool := key == "cpu" || key == "requests.cpu" || key == "limits.cpu"

/-- A count as a quantity. -/
def format (key : String) (amount : Nat) : String :=
  if isCpu key && amount % 1000 != 0 then toString amount ++ "m"
  else if isCpu key then toString (amount / 1000)
  else toString amount

section

variable (quantities : Quantities)

/-- A quantity as its key counts it. -/
def parse (key : String) (value : Value) : Nat :=
  let read (text : String) :=
    (if isCpu key then quantities.cpuMillis text else quantities.bytes text).toNat
  match value with
  | .string text => read text
  | .number number => read (quantities.numberText (.number number))
  | .float bits => read (quantities.numberText (.float bits))
  | _ => 0

def parseAll (value : Value) : Usage := .ofFields (parse quantities) (value.asObject?.getD [])

/-- The compute a pod holds, as `requests` or as `limits`. -/
def podCompute (kind : String) (pod : Value) : Usage :=
  let total := PodResources.containersTotal (parse quantities) kind pod
  (pod["spec"]["overhead"].asObject?.getD []).foldl
    (fun total field => total.add field.1 (parse quantities field.1 field.2)) total

/-- Which field of a container a compute resource stands for. -/
def computeField (key : String) : Option (String × String) :=
  if key = "cpu" ∨ key = "memory" ∨ key = "ephemeral-storage" then some ("requests", key)
  else (Text.splitOnce key '.').filter fun field => field.1 = "requests" ∨ field.1 = "limits"

/-- The containers, the init ones after the others, that do not set a resource. -/
def missing (pod : Value) (key : String) : List String :=
  match computeField key with
  | some (kind, resource) =>
    (["containers", "initContainers"].flatMap fun list => items pod["spec"][list]).filterMap
      fun container =>
        if (container["resources"][kind].get? resource).isNone then
          some (container["name"].asStr?.getD "")
        else none
  | none => []

def isTerminal (pod : Value) : Bool :=
  pod["status"]["phase"].asStr?.any fun phase => phase = "Succeeded" ∨ phase = "Failed"

/-- What a core object charges besides its count. -/
def coreUsage (resource : String) (obj : Value) (usage : Usage) : Usage :=
  if resource = "pods" then
    let usage := (podCompute quantities "requests" obj).entries.foldl (fun usage (key, amount) =>
      let usage := usage.add ("requests." ++ key) amount
      if key = "cpu" ∨ key = "memory" ∨ key = "ephemeral-storage" then usage.add key amount
      else usage) (usage.add "pods" 1)
    (podCompute quantities "limits" obj).entries.foldl (fun usage (key, amount) =>
      usage.add ("limits." ++ key) amount) usage
  else if resource = "services" then
    let usage := usage.add "services" 1
    let usage := if obj["spec"]["type"].asStr?.getD "ClusterIP" = "LoadBalancer" then
      usage.add "services.loadbalancers" 1 else usage
    let nodePorts := (items obj["spec"]["ports"]).countP fun port =>
      port["nodePort"].asI64?.getD 0 != 0
    if 0 < nodePorts then usage.add "services.nodeports" nodePorts else usage
  else if resource = "persistentvolumeclaims" then
    let storage :=
      parse quantities "requests.storage" obj["spec"]["resources"]["requests"]["storage"]
    let usage := (usage.add "persistentvolumeclaims" 1).add "requests.storage" storage
    match obj["spec"]["storageClassName"].asStr?.filter (· ≠ "") with
    | some storageClass =>
      (usage.add (storageClass ++ ".storageclass.storage.k8s.io/requests.storage") storage).add
        (storageClass ++ ".storageclass.storage.k8s.io/persistentvolumeclaims") 1
    | none => usage
  else if ["secrets", "configmaps", "replicationcontrollers", "resourcequotas"].contains resource then
    usage.add resource 1
  else usage

/-- What an object of a resource charges. The core group is "". -/
def usage (resource group : String) (obj : Value) : Usage :=
  if resource = "pods" ∧ isTerminal obj then .empty
  else
    let counted := Tally.empty.add
      (if group = "" then "count/" ++ resource else "count/" ++ resource ++ "." ++ group) 1
    if group = "" then coreUsage quantities resource obj counted else counted

def bestEffort (pod : Value) : Bool :=
  (["cpu", "memory"].all fun resource =>
    (podCompute quantities "requests" pod).amount resource == 0 &&
      (podCompute quantities "limits" pod).amount resource == 0) &&
  (["containers", "initContainers"].all fun list => (items pod["spec"][list]).all fun container =>
    ["requests", "limits"].all fun kind => ["cpu", "memory"].all fun resource =>
      (container["resources"][kind].get? resource).isNone)

/-- A scope with its operator and values. -/
structure Scope where
  name : String
  operator : String
  values : List String

def scopes (quota : Value) : List Scope :=
  (quota["spec"]["scopes"].strings.map fun name => ⟨name, "Exists", []⟩) ++
  (items quota["spec"]["scopeSelector"]["matchExpressions"]).map fun expression =>
    ⟨expression["scopeName"].asStr?.getD "", expression["operator"].asStr?.getD "Exists",
      expression["values"].strings⟩

def Scope.covers (obj : Value) (scope : Scope) : Bool :=
  if scope.name = "Terminating" then
    obj["spec"]["activeDeadlineSeconds"].asI64?.any fun seconds => 0 ≤ seconds
  else if scope.name = "NotTerminating" then obj["spec"]["activeDeadlineSeconds"].isNull
  else if scope.name = "BestEffort" then bestEffort quantities obj
  else if scope.name = "NotBestEffort" then !bestEffort quantities obj
  else if scope.name = "PriorityClass" then
    let priorityClass := obj["spec"]["priorityClassName"].asStr?.getD ""
    if scope.operator = "In" then scope.values.contains priorityClass
    else if scope.operator = "NotIn" then !scope.values.contains priorityClass
    else if scope.operator = "Exists" then priorityClass != ""
    else if scope.operator = "DoesNotExist" then priorityClass == ""
    else false
  else false

/-- Whether a quota with its scopes covers an object. Scopes cover pods only. -/
def covers (quota : Value) (resource group : String) (obj : Value) : Bool :=
  (scopes quota).isEmpty ||
    (resource = "pods" ∧ group = "") && (scopes quota).all (Scope.covers quantities obj)

end

def specHard (quota : Value) : Option Fields := quota["spec"]["hard"].asObject?

/-- A usage kept to the resources that the quota's `hard` names. -/
def tracked (quota : Value) (usage : Usage) : Usage :=
  usage.filter fun key => (specHard quota).any fun hard => (hard.get? key).isSome

/-- A usage as a ResourceList, for every key of `hard`. -/
def resourceList (hard : Fields) (usage : Usage) : Value :=
  .object (hard.map fun (key, _) => (key, .string (format key (usage.amount key))))

/-- The API version that a resource is served under; of those not named here, the core one. -/
def API_VERSIONS : List (String × List String) := [
  ("apps/v1", ["deployments", "replicasets", "statefulsets", "daemonsets", "controllerrevisions"]),
  ("batch/v1", ["jobs", "cronjobs"]),
  ("coordination.k8s.io/v1", ["leases"]),
  ("discovery.k8s.io/v1", ["endpointslices"]),
  ("storage.k8s.io/v1", ["storageclasses", "csidrivers", "csinodes", "volumeattachments",
    "csistoragecapacities", "volumeattributesclasses"]),
  ("rbac.authorization.k8s.io/v1",
    ["clusterroles", "clusterrolebindings", "roles", "rolebindings"]),
  ("certificates.k8s.io/v1", ["certificatesigningrequests"]),
  ("apiextensions.k8s.io/v1", ["customresourcedefinitions"]),
  ("autoscaling/v2", ["horizontalpodautoscalers"]),
  ("networking.k8s.io/v1", ["networkpolicies", "ingresses", "ingressclasses", "servicecidrs",
    "ipaddresses"]),
  ("scheduling.k8s.io/v1", ["priorityclasses"]),
  ("flowcontrol.apiserver.k8s.io/v1", ["flowschemas", "prioritylevelconfigurations"]),
  ("node.k8s.io/v1", ["runtimeclasses"]),
  ("policy/v1", ["poddisruptionbudgets"]),
  ("resource.k8s.io/v1", ["deviceclasses", "resourceclaims", "resourceclaimtemplates",
    "resourceslices"]),
  ("admissionregistration.k8s.io/v1", ["mutatingwebhookconfigurations",
    "validatingwebhookconfigurations", "validatingadmissionpolicies",
    "validatingadmissionpolicybindings", "mutatingadmissionpolicies",
    "mutatingadmissionpolicybindings"]),
  ("gateway.networking.k8s.io/v1", ["gatewayclasses", "gateways", "httproutes"]),
  ("apiregistration.k8s.io/v1", ["apiservices"]),
  ("rustkube.io/v1alpha1", ["podmigrations"])]

def resourceToApiVersion (resource : String) : String :=
  ((API_VERSIONS.find? fun entry => entry.2.contains resource).map Prod.fst).getD "v1"

def groupOf (resource : String) : String :=
  ((Text.splitOnce (resourceToApiVersion resource) '/').map Prod.fst).getD ""

section

variable (quantities : Quantities)

def COMPUTE : List String := [
  "cpu", "memory", "ephemeral-storage", "requests.cpu", "requests.memory",
  "requests.ephemeral-storage", "limits.cpu", "limits.memory", "limits.ephemeral-storage"]

def list (usage : Usage) (keys : List String) : String :=
  ",".intercalate (keys.map fun key => key ++ "=" ++ format key (usage.amount key))

def usedOf (quota : Value) : Usage := parseAll quantities quota["status"]["used"]

def hardOf (quota : Value) : Usage := parseAll quantities quota["status"]["hard"]

def nameOf (quota : Value) : String := quota["metadata"]["name"].asStr?.getD ""

/-- The compute resources that a quota tracks and a pod leaves open. -/
def unspecified (quota pod : Value) : List String :=
  (((specHard quota).getD []).map Prod.fst).filterMap fun key =>
    if COMPUTE.contains key && missing pod key != [] then
      some (key ++ " for: " ++ ",".intercalate (missing pod key))
    else none

/-- The resources that would go past their limit. One without a limit in `status.hard` cannot. -/
def overLimit (quota : Value) (delta : Usage) : List String :=
  delta.entries.filterMap fun (key, amount) =>
    if ((hardOf quantities quota).get? key).any fun hard =>
      hard < (usedOf quantities quota).amount key + amount
    then some key else none

/-- Why a quota refuses `delta` for an object, if it does. -/
def refusal (quota : Value) (resource : String) (obj : Value) (delta : Usage) : Option String :=
  if resource = "pods" ∧ unspecified quota obj ≠ [] then
    some ("failed quota: " ++ nameOf quota ++ ": must specify " ++
      "; ".intercalate (unspecified quota obj))
  else if !quota["status"]["hard"].isObject then
    some ("status unknown for quota: " ++ nameOf quota ++ ", resource: " ++
      delta.names.head?.getD "")
  else
    match overLimit quantities quota delta with
    | [] => none
    | keys => some ("exceeded quota: " ++ nameOf quota ++ ", requested: " ++ list delta keys ++
        ", used: " ++ list (usedOf quantities quota) keys ++
        ", limited: " ++ list (hardOf quantities quota) keys)

/-- Whether a charge takes an amount, or gives one back and stops at zero. -/
inductive Direction where
  | take
  | giveBack
deriving DecidableEq

def Direction.apply : Direction → Nat → Nat → Nat
  | .take, used, amount => used + amount
  | .giveBack, used, amount => used - amount

def chargedUsage (direction : Direction) (delta : Usage) (quota : Value) : Usage :=
  Tally.merge (fun used amount => direction.apply (used.getD 0) amount)
    (usedOf quantities quota) delta

/-- The annotation that tells the quota controller to wait. -/
def CHARGED_AT : String := "quota.rustkube.io/charged-at"

def openAnnotations (quota : Value) : Option Value :=
  if quota["metadata"]["annotations"].isObject then some quota
  else quota.assignIn "metadata" "annotations" (.object [])

def annotate (now : String) (quota : Value) : Option Value := do
  let quota ← openAnnotations quota
  let annotations ← quota["metadata"]["annotations"].assign CHARGED_AT (.string now)
  quota.assignIn "metadata" "annotations" annotations

/-- The quota with a charge in its `status.used`. -/
def charged (direction : Direction) (delta : Usage) (now : String) (hard : Fields) (quota : Value) :
    Option Value := do
  let quota ← quota.assignIn "status" "used"
    (resourceList hard (chargedUsage quantities direction delta quota))
  annotate now quota

end

variable {quantities : Quantities} {quota after : Value} {delta : Usage} {now : String}

/-- What a charge writes to a quota, and what it leaves. -/
structure IsCharged (quantities : Quantities) (direction : Direction) (delta : Usage)
    (hard : Fields) (quota after : Value) : Prop where
  used : after["status"]["used"] = resourceList hard (chargedUsage quantities direction delta quota)
  hard : after["status"]["hard"] = quota["status"]["hard"]
  spec : after["spec"] = quota["spec"]
  name : after["metadata"]["name"] = quota["metadata"]["name"]

theorem annotate_kept (annotated : annotate now quota = some after)
    {field : String} (outside : field ≠ "metadata") :
    after[field] = quota[field] ∧ after["metadata"]["name"] = quota["metadata"]["name"] := by
  have ⟨opened, first, annotated⟩ := Option.bind_eq_some_iff.mp annotated
  have ⟨annotations, _, last⟩ := Option.bind_eq_some_iff.mp annotated
  have prepared : Value.Within "metadata" ["annotations"] quota opened := by
    unfold openAnnotations at first
    split_ifs at first
    · cases first
      exact .refl ..
    · exact .of_assignIn first
  have all := prepared.trans (.of_assignIn last)
  exact ⟨all.outside field outside, all.inside "name" (by decide)⟩

theorem charged_ok {direction : Direction} {hard : Fields}
    (made : charged quantities direction delta now hard quota = some after) :
    IsCharged quantities direction delta hard quota after := by
  have ⟨written, first, last⟩ := Option.bind_eq_some_iff.mp made
  have status := (annotate_kept last (by decide : "status" ≠ "metadata")).1
  have frame := Value.Within.of_assignIn first
  constructor
  · rw [status, Value.assignIn_self first]
  · rw [status, frame.inside "hard" (by decide)]
  · rw [(annotate_kept last (by decide : "spec" ≠ "metadata")).1, frame.outside "spec" (by decide)]
  · rw [(annotate_kept last (by decide : "spec" ≠ "metadata")).2, frame.outside "metadata"
      (by decide)]

theorem resourceList_get? (hard : Fields) (usage : Usage) (key : String) :
    (resourceList hard usage).get? key =
      (hard.get? key).map fun _ => .string (format key (usage.amount key)) := by
  change lookup key (hard.map _) = (lookup key hard).map _
  induction hard with
  | nil => rfl
  | cons field rest ih =>
    have ⟨other, value⟩ := field
    by_cases same : key = other
    · subst same
      simp
    · rw [map_cons, lookup_cons_of_ne same, lookup_cons_of_ne same]
      exact ih

theorem parseAll_get? (value : Value) (key : String) :
    (parseAll quantities value).get? key = (value.get? key).map (parse quantities key) := by
  unfold parseAll
  rw [Tally.get?_ofFields, Value.get?]
  cases value.asObject? <;> rfl

@[simp] theorem Direction.apply_zero (direction : Direction) (used : Nat) :
    direction.apply used 0 = used := by
  cases direction <;> rfl

theorem chargedUsage_amount (direction : Direction) (delta : Usage) (quota : Value) (key : String) :
    (chargedUsage quantities direction delta quota).amount key =
      direction.apply ((usedOf quantities quota).amount key) (delta.amount key) := by
  unfold chargedUsage Tally.amount
  rw [Tally.get?_merge]
  cases delta.get? key <;> simp

end Rustkube.Quota
