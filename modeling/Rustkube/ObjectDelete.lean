import Rustkube.NamespaceLifecycle

namespace Rustkube

open Json

/-- A DELETE of an object that is no Namespace. `now` is the clock. -/
structure Deletion where
  name : String
  ns : Option String
  options : DeleteOptions
  propagationPolicy : Option String
  gracePeriodSeconds : Option Int
  now : String

def metaFinalizers (obj : Value) : List Value := obj["metadata"]["finalizers"].asArray?.getD []

theorem finalizersLeft_eq (obj : Value) : finalizersLeft obj = !(metaFinalizers obj).isEmpty := by
  unfold finalizersLeft metaFinalizers
  cases obj["metadata"]["finalizers"].asArray? <;> rfl

def ensureFinalizer (finalizers : List Value) (name : String) : List Value :=
  if finalizers.any fun finalizer => finalizer.asStr? == some name then finalizers
  else finalizers ++ [.string name]

/-- The finalizer that a propagation policy stands for. -/
def impliedFinalizer (policy : Option String) : Option String :=
  if policy = some "Foreground" then some "foregroundDeletion"
  else if policy = some "Orphan" then some "orphan"
  else none

namespace Deletion

variable (deletion : Deletion)

/-- The finalizers the object has to outlive. -/
def finalizers (obj : Value) : List Value :=
  match impliedFinalizer deletion.propagationPolicy with
  | some implied => ensureFinalizer (metaFinalizers obj) implied
  | none => metaFinalizers obj

def stamp (obj : Value) : Option Value :=
  if obj["metadata"]["deletionTimestamp"].isNull then
    obj.assignIn "metadata" "deletionTimestamp" (.string deletion.now)
  else some obj

def grant (obj : Value) : Option Value :=
  match deletion.gracePeriodSeconds with
  | some seconds => obj.assignIn "metadata" "deletionGracePeriodSeconds" (.number seconds)
  | none => some obj

/-- The marks of a deletion that controllers finish. -/
def mark (fresh : Value) : Except Failure Value := orPanic do
  let obj ← deletion.stamp fresh
  let obj ← deletion.grant obj
  obj.assignIn "metadata" "finalizers" (.array (deletion.finalizers fresh))

/-- What a DELETE comes to. -/
inductive Verdict where
  | nothing
  | mark
  | remove

/-- `perform_delete` on the object as it was read, up to its write. -/
def verdict (api : Api) (obj : Value) : Except Failure Verdict := do
  checkPreconditions obj deletion.options
  let _ ← Admission.admitWrite api.world api.request .delete none (some obj)
  if deletion.options.dryRun then pure .nothing
  else if (deletion.finalizers obj).isEmpty then pure .remove
  else pure .mark

theorem verdict_remove {deletion : Deletion} {api : Api} {obj : Value}
    (decided : deletion.verdict api obj = .ok .remove) : finalizersLeft obj = false := by
  have ⟨_, _, decided⟩ := bind_eq_ok.mp decided
  have ⟨_, _, decided⟩ := bind_eq_ok.mp decided
  split_ifs at decided with dry empty
  · cases pure_eq_ok.mp decided
  · rw [finalizersLeft_eq, Bool.not_eq_false']
    unfold finalizers ensureFinalizer at empty
    split at empty
    · split_ifs at empty
      · exact empty
      · simp at empty
    · exact empty
  · cases pure_eq_ok.mp decided

end Deletion

/-- A pod's eviction, with the budgets and pods of its namespace as they are listed. `count` is the
number of pods that a text stands for among a total: a percentage of it, or a number. -/
structure Eviction where
  body : Value
  pdbs : List Value
  pods : List Value
  count : (text : String) → (total : Int) → Option Int

/-- `matchLabels` only. `{}` selects everything. -/
def selectorMatches (selector labels : Value) : Bool :=
  match (selector.get? "matchLabels").bind Value.asObject? with
  | some wanted => wanted.all fun (key, value) => labels.get? key == some value
  | none => selector.isObject

def isReady (pod : Value) : Bool :=
  (pod["status"]["conditions"].asArray?.getD []).any fun condition =>
    condition["type"] == .string "Ready" && condition["status"] == .string "True"

namespace Eviction

variable (eviction : Eviction)

def intstrToCount (value : Value) (total : Int) : Option Int :=
  match value.asI64? with
  | some number => some number
  | none => value.asStr?.bind (eviction.count · total)

/-- How many healthy pods a budget asks for among `total`. -/
def desiredHealthy (pdb : Value) (total : Int) : Int :=
  match eviction.intstrToCount pdb["spec"]["minAvailable"] total with
  | some least => least
  | none =>
    match eviction.intstrToCount pdb["spec"]["maxUnavailable"] total with
    | some most => total - most
    | none => 0

/-- The listed pods that a budget covers. -/
def matched (pdb : Value) : List Value :=
  eviction.pods.filter fun pod => selectorMatches pdb["spec"]["selector"] pod["metadata"]["labels"]

/-- How many more disruptions a budget permits. Differences are i64 and wrap. -/
def disruptionsAllowed (pdb : Value) : Int :=
  let matched := eviction.matched pdb
  let desired := (eviction.desiredHealthy pdb matched.length).bmod (2 ^ 64)
  ((matched.countP isReady : Int) - desired).bmod (2 ^ 64)

def blocks (pod pdb : Value) : Bool :=
  selectorMatches pdb["spec"]["selector"] pod["metadata"]["labels"] &&
    eviction.disruptionsAllowed pdb ≤ 0

/-- `create_eviction` on the pod as it was read: whether the pod is to be removed. -/
def verdict (api : Api) (pod : Value) : Except Failure Bool := do
  let _ ← api.admitWrite .create eviction.body none
  pure (!eviction.pdbs.any (eviction.blocks pod))

end Eviction

end Rustkube
