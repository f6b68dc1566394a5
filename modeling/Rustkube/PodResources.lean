import Mathlib.Algebra.Group.Defs
import Mathlib.Order.Lattice
import Rustkube.Lib.Json
import Rustkube.Lib.Tally

namespace Rustkube

open Tally List Json

/-- The quantities of `apimachinery::quantity`, which this cluster reads through floating point, and
the text of a JSON number. -/
structure Quantities where
  cpuMillis : String → UInt64
  bytes : String → UInt64
  numberText : Value → String

/-- All amounts read as nothing. -/
def noQuantities : Quantities := ⟨fun _ => 0, fun _ => 0, fun _ => ""⟩

namespace PodResources

/-- The items of a list that may not be there. -/
def items (value : Value) : List Value := value.asArray?.getD []

def isSidecar (container : Value) : Bool := container["restartPolicy"].asStr? = some "Always"

section

variable {T : Type} [Zero T] [Add T] [LT T] [DecidableLT T]

/- `kind` is `requests` or `limits`; `amount` reads one quantity. -/
variable (amount : String → Value → T) (kind : String)

def each (container : Value) : Tally T :=
  .ofFields amount (container["resources"][kind].asObject?.getD [])

/-- The loop over the init containers: what runs together, the sidecars so far, and the busiest of
the init steps. -/
structure Running (T : Type) where
  total : Tally T
  sidecars : Tally T
  busiestInit : Tally T

/-- A sidecar goes on beside all that follows; an ordinary init container runs beside the sidecars
that were started before it. -/
def Running.initContainer (running : Running T) (container : Value) : Running T :=
  let mine := each amount kind container
  if isSidecar container then
    let sidecars := running.sidecars.addAll mine
    ⟨running.total.addAll mine, sidecars, running.busiestInit.maxAll sidecars⟩
  else { running with busiestInit := running.busiestInit.maxAll (mine.addAll running.sidecars) }

/-- A pod's total from its containers, per resource: what runs together, or the busiest init step
where that is more. -/
def containersTotal (pod : Value) : Tally T :=
  let total := (items pod["spec"]["containers"]).foldl
    (fun total container => total.addAll (each amount kind container)) .empty
  let running := (items pod["spec"]["initContainers"]).foldl (Running.initContainer amount kind)
    ⟨total, .empty, .empty⟩
  running.total.maxAll running.busiestInit

end

section

variable {T : Type} [AddZeroClass T] (amount : String → Value → T) (kind name : String)

/-- What a container has under a name. -/
def own (container : Value) : T :=
  ((container["resources"][kind].get? name).map (amount name)).getD 0

/-- What containers have, added one by one to what was there: sums of floating-point amounts depend
on the order. -/
def added (before : T) (containers : List Value) : T :=
  containers.foldl (fun sum container => sum + own amount kind name container) before

/-- What runs when all init containers are done. -/
def together (pod : Value) : T :=
  added amount kind name 0 (items pod["spec"]["containers"] ++
    (items pod["spec"]["initContainers"]).filter isSidecar)

/-- What runs during an init container: itself and the sidecars before it. -/
def initStep (sidecars : T) (container : Value) : T :=
  if isSidecar container then sidecars + own amount kind name container
  else own amount kind name container + sidecars

/-- What runs during each of the init containers, where some sidecars run before. -/
def initSteps (before : T) (containers : List Value) : List T :=
  containers.mapIdx fun i container =>
    initStep amount kind name
      (added amount kind name before ((containers.take i).filter isSidecar)) container

variable {amount kind name} {container : Value}

theorem amount_addAll (tally other : Tally T) :
    (tally.addAll other).amount name = tally.amount name + other.amount name := by
  unfold Tally.amount addAll
  rw [get?_merge]
  cases other.get? name with
  | none | some => simp

theorem amount_each :
    (each amount kind container).amount name = own amount kind name container := by
  unfold each own Tally.amount
  rw [Tally.get?_ofFields]
  cases container["resources"][kind] <;> rfl

theorem amount_foldl_each (containers : List Value) (total : Tally T) :
    (containers.foldl (fun total container => total.addAll (each amount kind container))
      total).amount name = added amount kind name (total.amount name) containers := by
  induction containers generalizing total with
  | nil => rfl
  | cons head rest ih => rw [foldl_cons, ih, amount_addAll, amount_each, added, added, foldl_cons]

theorem initSteps_cons (before : T) (rest : List Value) :
    initSteps amount kind name before (container :: rest) =
      initStep amount kind name before container :: initSteps amount kind name
        (added amount kind name before ([container].filter isSidecar)) rest := by
  unfold initSteps
  rw [mapIdx_cons]
  congr 1
  congr 1
  funext i later
  rw [take_succ_cons, ← singleton_append, filter_append, added, foldl_append]
  rfl

variable [LinearOrder T]

theorem amount_maxAll {tally : Tally T} (floor : 0 ≤ tally.amount name) (other : Tally T) :
    (tally.maxAll other).amount name = max (tally.amount name) (other.amount name) := by
  unfold Tally.amount maxAll at *
  rw [get?_merge]
  cases other.get? name with
  | none => simp [max_eq_left floor]
  | some more => simp [max_def_lt]

/-- One pass over the init containers: the running total, and the busiest step. -/
theorem foldl_initContainer (containers : List Value) (running : Running T)
    (floor : 0 ≤ running.busiestInit.amount name) :
    let after := containers.foldl (Running.initContainer amount kind) running
    after.total.amount name =
        added amount kind name (running.total.amount name) (containers.filter isSidecar) ∧
      after.busiestInit.amount name =
        (initSteps amount kind name (running.sidecars.amount name) containers).foldl max
          (running.busiestInit.amount name) := by
  induction containers generalizing running with
  | nil => exact ⟨rfl, rfl⟩
  | cons head rest ih =>
    rw [initSteps_cons, foldl_cons, foldl_cons]
    have step : (running.initContainer amount kind head).busiestInit.amount name =
        max (running.busiestInit.amount name)
          (initStep amount kind name (running.sidecars.amount name) head) := by
      unfold Running.initContainer initStep
      split_ifs <;> rw [amount_maxAll floor, amount_addAll, amount_each]
    have ⟨total, busiest⟩ := ih (running.initContainer amount kind head)
      (step ▸ floor.trans (le_max_left ..))
    refine ⟨total.trans ?_, busiest.trans ?_⟩
    · unfold Running.initContainer
      by_cases sidecar : isSidecar head = true
      · simp [sidecar, added, amount_addAll, amount_each]
      · simp [sidecar]
    · rw [step]
      congr 2
      unfold Running.initContainer
      by_cases sidecar : isSidecar head = true
      · simp [sidecar, added, amount_addAll, amount_each]
      · simp [sidecar, added]

variable (amount kind name)

theorem containersTotal_amount (pod : Value) (floor : 0 ≤ together amount kind name pod) :
    (containersTotal amount kind pod).amount name =
      (initSteps amount kind name 0 (items pod["spec"]["initContainers"])).foldl max
        (together amount kind name pod) := by
  unfold containersTotal
  have ⟨total, busiest⟩ := @foldl_initContainer T _ amount kind name _
    (items pod["spec"]["initContainers"]) ⟨(items pod["spec"]["containers"]).foldl
      (fun total container => total.addAll (each amount kind container)) .empty, .empty, .empty⟩
        le_rfl
  have whole := total.trans (congrArg (added amount kind name · _) (amount_foldl_each _ _))
  unfold added at whole
  rw [← foldl_append] at whole
  rw [amount_maxAll (whole ▸ floor), whole, busiest]
  exact foldl_assoc.symm.trans (congrArg (foldl max · _) (max_eq_left floor))

/-- The most that runs at a time: what is there in the end, or the busiest of the init steps. -/
theorem containersTotal_eq_busiest (closed : ∀ a b : T, 0 ≤ a → 0 ≤ b → 0 ≤ a + b) (pod : Value)
    (floor : ∀ list ∈ ["containers", "initContainers"], ∀ container ∈ items pod["spec"][list],
      0 ≤ own amount kind name container) :
    (containersTotal amount kind pod).amount name =
      (initSteps amount kind name 0 (items pod["spec"]["initContainers"])).foldl max
        (together amount kind name pod) := by
  have whole : 0 ≤ together amount kind name pod := by
    refine foldlRecOn _ _ le_rfl fun sum known container member => closed _ _ known ?_
    rcases mem_append.mp member with regular | sidecar
    · exact floor "containers" (by simp) container regular
    · exact floor "initContainers" (by simp) container (mem_of_mem_filter sidecar)
  exact containersTotal_amount amount kind name pod whole

end

/-- Containers that ask for some CPU. -/
def asking (cpu : Int) (restartPolicy : String) : Value :=
  .object [("resources", .object [("requests", .object [("cpu", .number cpu)])]),
    ("restartPolicy", .string restartPolicy)]

/-- A sidecar between two init containers: the second one runs beside it. -/
theorem containersTotal_eq_busiest_sidecar :
    (containersTotal (fun _ value => (value.asInt?.getD 0).toNat) "requests"
      (.object [("spec", .object
      [("initContainers", .array [asking 300 "", asking 200 "Always", asking 500 ""]),
        ("containers", .array [asking 400 ""])])])).amount "cpu" = 700 :=
  (containersTotal_eq_busiest _ "requests" "cpu" (fun _ _ _ _ => Nat.zero_le _) _
    (fun _ _ _ _ => Nat.zero_le _)).trans (by decide +kernel)

end PodResources

end Rustkube
