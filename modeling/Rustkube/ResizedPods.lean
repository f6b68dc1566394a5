import Rustkube.NodeUsage

namespace Rustkube.Scheduler

open Ledger List
open Json
open PodResources
open scoped Ledger

section

variable (quantities : Quantities) (key : String)

/-- What a container of the spec asks for. -/
def desired (container : Value) : UInt64 :=
  requested quantities key container["resources"]["requests"][key]

/-- The status of a container, by its name. -/
def statusOf (pod container : Value) : Value :=
  ((items pod["status"]["containerStatuses"]).find? fun status =>
    status["name"] == container["name"]).getD .null

/-- What the container runs with, as its status says. -/
def actual (pod container : Value) : UInt64 :=
  requested quantities key (statusOf pod container)["resources"]["requests"][key]

/-- What the node has set aside for it. `allocatedResources` is a map of amounts, without a
`requests` inside. -/
def allocated (pod container : Value) : UInt64 :=
  requested quantities key (statusOf pod container)["allocatedResources"][key]

def largest (pod container : Value) : Nat :=
  max (desired quantities key container).toNat
    (max (actual quantities key pod container).toNat (allocated quantities key pod container).toNat)

/-- What the regular containers hold between them. -/
def sumLargest (pod : Value) : Nat :=
  ((items pod["spec"]["containers"]).map (largest quantities key pod)).sum

/-- One of the two amounts of a Pod. -/
def component (amounts : UInt64 × UInt64) : UInt64 := if key = "cpu" then amounts.1 else amounts.2

end

section

variable {quantities : Quantities} {key : String}

end

section

variable (quantities : Quantities) (key : String) (pod : Value)

/-- What the statuses of the containers give, one by one. -/
def statusAmounts (statuses : List Value) : List UInt64 :=
  statuses.flatMap fun status => ["resources", "allocatedResources"].map fun field =>
    requested quantities key status[field]["requests"][key]

/-- The amounts of which the greatest counts: what the containers and sidecars of the spec ask for
together, each of its init steps, and what any one status gives. Sums are of 64 bits. -/
def weighed : List UInt64 :=
  together (requested quantities) "requests" key pod ::
    (initSteps (requested quantities) "requests" key 0 (items pod["spec"]["initContainers"]) ++
      statusAmounts quantities key (items pod["status"]["containerStatuses"]))

/-- The greatest of those is, with the overhead, as much as all containers hold. -/
def covered : Bool :=
  (weighed quantities key pod).max?.any fun greatest =>
    sumLargest quantities key pod ≤
      (greatest + requested quantities key pod["spec"]["overhead"][key]).toNat

end

section

variable {quantities : Quantities} {key : String} (isAmount : key = "cpu" ∨ key = "memory")

include isAmount

variable {pod : Value} (noPodLevel : pod["spec"]["resources"]["requests"].isNull = true)

include noPodLevel

end

def asking (amount : String) : Value := .object [("requests", .object [("cpu", .string amount)])]

end Rustkube.Scheduler
