import Rustkube.LabelSelectors
import Rustkube.SchedulingLoop

namespace Rustkube.Affinity

open List Json PodResources Scheduler

/-- The node of a name. Of two nodes with one name the map keeps the last. -/
def byName (nodes : List Value) (name : String) : Option Value :=
  nodes.reverse.find? fun node => node["metadata"]["name"].asStr? = some name

/-- A node without the label is in no domain. -/
def domainOf (node : Value) (topologyKey : String) : Option String :=
  node["metadata"]["labels"][topologyKey].asStr?

def topologyKey (term : Value) : String := term["topologyKey"].asStr?.getD "kubernetes.io/hostname"

def namespaceOf (pod : Value) : String := pod["metadata"]["namespace"].asStr?.getD "default"

/-- Listed namespaces, all of them when there is any `namespaceSelector`, or the pod's own. -/
def termMatchesPod (term : Value) (podNs : String) (other : Value) : Bool :=
  let otherNs := namespaceOf other
  let listed := items term["namespaces"]
  let nsOk :=
    if !listed.isEmpty then listed.any fun name => name.asStr? = some otherNs
    else if term["namespaceSelector"].isObject then true
    else otherNs == podNs
  nsOk && selectorMatches term["labelSelector"] other["metadata"]["labels"]

/-- The domain that something on a node is in. -/
def domainAt (nodes : List Value) (nodeName key : String) : Option String :=
  (byName nodes nodeName).bind fun node => domainOf node key

/-- The domains that hold a pod matching `term`. -/
def occupiedDomains (term : Value) (podNs : String) (nodes : List Value) (cluster : ClusterState) :
    List String :=
  cluster.placed.filterMap fun (nodeName, other) =>
    if termMatchesPod term podNs other then domainAt nodes nodeName (topologyKey term) else none

/-- The required terms of `podAffinity` or `podAntiAffinity`. -/
def requiredTerms (pod : Value) (field : String) : List Value :=
  items pod["spec"]["affinity"][field]["requiredDuringSchedulingIgnoredDuringExecution"]

section

variable (pod node : Value) (nodes : List Value) (cluster : ClusterState)

/-- The node's domain must already hold a matching pod. -/
def affinityTerm (term : Value) : Except String Unit :=
  let key := topologyKey term
  match domainOf node key with
  | none => throw ("node has no " ++ key ++ " label, required by podAffinity")
  | some here =>
    if (occupiedDomains term (namespaceOf pod) nodes cluster).contains here then pure ()
    else throw ("podAffinity: no matching pod in " ++ key ++ "=" ++ here)

/-- The node's domain must hold no matching pod. A node in no domain breaks no term. -/
def antiAffinityTerm (term : Value) : Except String Unit :=
  let key := topologyKey term
  match domainOf node key with
  | none => pure ()
  | some here =>
    if (occupiedDomains term (namespaceOf pod) nodes cluster).contains here then
      throw ("podAntiAffinity: a matching pod is already in " ++ key ++ "=" ++ here)
    else pure ()

def podAffinityFilter : Except String Unit := do
  forM (requiredTerms pod "podAffinity") (affinityTerm pod node nodes cluster)
  forM (requiredTerms pod "podAntiAffinity") (antiAffinityTerm pod node nodes cluster)

end

section

variable {pod node term : Value} {nodes : List Value} {cluster : ClusterState} {podNs here : String}

theorem mem_occupiedDomains :
    here ∈ occupiedDomains term podNs nodes cluster ↔ ∃ entry ∈ cluster.placed,
      termMatchesPod term podNs entry.2 = true ∧
        domainAt nodes entry.1 (topologyKey term) = some here := by
  simp [occupiedDomains, mem_filterMap]

theorem antiAffinityTerm_ok :
    antiAffinityTerm pod node nodes cluster term = .ok () ↔ ∀ here,
      domainOf node (topologyKey term) = some here →
        here ∉ occupiedDomains term (namespaceOf pod) nodes cluster := by
  unfold antiAffinityTerm
  dsimp only
  cases domainOf node (topologyKey term) with
  | none => simp [pure, Except.pure]
  | some here =>
    dsimp only
    split_ifs with held <;>
      simpa [throw, throwThe, MonadExceptOf.throw, pure, Except.pure] using held

theorem podAffinityFilter_ok :
    podAffinityFilter pod node nodes cluster = .ok () ↔
      (∀ term ∈ requiredTerms pod "podAffinity", affinityTerm pod node nodes cluster term = .ok
        ()) ∧
      ∀ term ∈ requiredTerms pod "podAntiAffinity",
        antiAffinityTerm pod node nodes cluster term = .ok () := by
  unfold podAffinityFilter
  rw [bind_eq_ok]
  constructor
  · rintro ⟨_, affinity, anti⟩
    exact ⟨forM_eq_ok.mp affinity, forM_eq_ok.mp anti⟩
  · rintro ⟨affinity, anti⟩
    exact ⟨(), forM_eq_ok.mpr affinity, forM_eq_ok.mpr anti⟩

end

/-- A Pod on a node. -/
abbrev Placement := String × Value

/-- A required anti-affinity term of the first selects the second, and both are in one of its
domains. -/
def Repels (nodes : List Value) (first second : Placement) : Prop :=
  ∃ term ∈ requiredTerms first.2 "podAntiAffinity",
    termMatchesPod term (namespaceOf first.2) second.2 = true ∧
      ∃ domain, domainAt nodes first.1 (topologyKey term) = some domain ∧
        domainAt nodes second.1 (topologyKey term) = some domain

/-- What the scheduler has placed, the oldest first, and what is on the nodes besides. -/
structure Board where
  usage : String → Scheduler.NodeUsage
  others : List Placement
  placed : List Placement

def Board.cluster (board : Board) : ClusterState := ⟨board.usage, board.others ++ board.placed⟩

inductive Move where
  /-- The scheduler puts a workload on a node. -/
  | place (charged : Charge)
  | leave (index : Nat)
  /-- Everything that the scheduler did not place. -/
  | elsewhere (usage : String → Scheduler.NodeUsage) (others : List Placement)

variable (quantities : Quantities) (nodes : List Value)

/-- A workload goes only to a node that passes the filter as things are then. -/
def Board.step (board : Board) : Move → Option Board
  | .place charged => do
    let node ← byName nodes charged.node
    if (podAffinityFilter charged.pod node nodes board.cluster).isOk then
      some { board with
        usage := charge quantities board.usage charged
        placed := board.placed ++ [(charged.node, charged.pod)] }
    else none
  | .leave index => some { board with placed := board.placed.eraseIdx index }
  | .elsewhere usage others => some { board with usage := usage, others := others }

/-- A term of something that is there and selects the incoming workload is met by a term of the
incoming one that selects it back, over the same domains. -/
def Answered (board : Board) : Move → Prop
  | .place charged => ∀ earlier ∈ board.placed, ∀ term ∈ requiredTerms earlier.2 "podAntiAffinity",
      termMatchesPod term (namespaceOf earlier.2) charged.pod = true →
        ∃ own ∈ requiredTerms charged.pod "podAntiAffinity",
          termMatchesPod own (namespaceOf charged.pod) earlier.2 = true ∧
            topologyKey own = topologyKey term
  | _ => True

instance (board : Board) (move : Move) : Decidable (Answered board move) := by
  cases move <;> unfold Answered <;> infer_instance

variable {quantities} {nodes} {board after : Board} {entry : Placement}

/-- Nothing that the scheduler has placed repels what it placed later, nor the other way round. -/
def Apart (nodes : List Value) (board : Board) : Prop :=
  board.placed.Pairwise fun earlier later =>
    ¬Repels nodes earlier later ∧ ¬Repels nodes later earlier

theorem not_repels_of_passed {pod node : Value} {nodeName : String} {cluster : ClusterState}
    (found : byName nodes nodeName = some node)
    (passed : podAffinityFilter pod node nodes cluster = .ok ())
    (there : entry ∈ cluster.placed) : ¬Repels nodes (nodeName, pod) entry := by
  rintro ⟨term, required, selects, domain, ours, theirs⟩
  have here : domainOf node (topologyKey term) = some domain := by
    simpa [domainAt, found] using ours
  have free := antiAffinityTerm_ok.mp ((podAffinityFilter_ok.mp passed).2 term required) domain here
  exact free (mem_occupiedDomains.mpr ⟨entry, there, selects, theirs⟩)

theorem not_repelled_of_answered {charged : Charge} (answered : Answered board (.place charged))
    (there : entry ∈ board.placed) (apart : ¬Repels nodes (charged.node, charged.pod) entry) :
    ¬Repels nodes entry (charged.node, charged.pod) := by
  rintro ⟨term, required, selects, domain, theirs, ours⟩
  have ⟨own, isOwn, selectsBack, sameKey⟩ := answered entry there term required selects
  exact apart ⟨own, isOwn, selectsBack, domain, sameKey ▸ ours, sameKey ▸ theirs⟩

theorem Apart.step (apart : Apart nodes board) (move : Move) (answered : Answered board move)
    (taken : board.step quantities nodes move = some after) : Apart nodes after := by
  cases move with
  | place charged =>
    have ⟨node, found, taken⟩ := Option.bind_eq_some_iff.mp taken
    split_ifs at taken with passed
    cases taken
    have passed := isOk_iff.mp passed
    refine pairwise_append.mpr ⟨apart, pairwise_singleton _ _, fun entry there new isNew => ?_⟩
    obtain rfl := mem_singleton.mp isNew
    have ours : ¬Repels nodes (charged.node, charged.pod) entry :=
      not_repels_of_passed found passed (mem_append_right _ there)
    exact ⟨not_repelled_of_answered answered there ours, ours⟩
  | leave index =>
    cases taken
    exact apart.sublist (eraseIdx_sublist ..)
  | elsewhere usage others =>
    cases taken
    exact apart

/-- In every run from a cluster where the scheduler has placed nothing. -/
theorem anti_affinity_kept {start : Board} (fresh : start.placed = [])
    (reached : Transition.Reaches (Board.step quantities nodes) Answered start board) :
    board.placed.Pairwise fun earlier later =>
      ¬Repels nodes earlier later ∧ ¬Repels nodes later earlier := by
  have initial : Apart nodes start := by simp [Apart, fresh]
  have apart : Apart nodes board :=
    reached.invariant initial fun _ move _ apart answered taken => apart.step move answered taken
  exact apart

def hostNode (name : String) : Value :=
  .object [("metadata", .object [("name", .string name),
    ("labels", .object [("kubernetes.io/hostname", .string name)])])]

def labelled (app : String) (affinity : List (String × Value)) : Value :=
  .object [("metadata", .object [("namespace", .string "default"),
      ("labels", .object [("app", .string app)])]),
    ("spec", .object [("affinity", .object affinity)])]

/-- No two on one host, for whatever has this label. -/
def apartFrom (app : String) : List (String × Value) :=
  [("podAntiAffinity", .object [("requiredDuringSchedulingIgnoredDuringExecution", .array [.object [
    ("topologyKey", .string "kubernetes.io/hostname"),
    ("labelSelector", .object [("matchLabels", .object [("app", .string app)])])]])])]

def placing (node : String) (pod : Value) : Move :=
  .place ⟨⟨false, ⟨"default", node, ""⟩⟩, node, pod⟩

def bare : Board := ⟨fun _ => 0, [], []⟩

/-- Two replicas that repel each other, on two hosts. -/
theorem anti_affinity_kept_replicas : ∃ board : Board,
    (Transition.Reaches (Board.step noQuantities [hostNode "a", hostNode "b"]) Answered bare board ∧
      board.placed.length = 2) ∧
    board.placed.Pairwise fun earlier later =>
      ¬Repels [hostNode "a", hostNode "b"] earlier later ∧
        ¬Repels [hostNode "a", hostNode "b"] later earlier := by
  simp only [and_assoc]
  refine Transition.exists_reaches_of
    [placing "a" (labelled "web" (apartFrom "web")), placing "b" (labelled "web" (apartFrom "web"))]
    (fun board => decide (board.placed.length = 2)) (by decide +kernel) fun board reached two => ?_
  exact ⟨of_decide_eq_true two, anti_affinity_kept rfl reached⟩

/-- A Pod that wants no web server beside it is placed, and then a web server beside it. -/
theorem anti_affinity_one_sided : ∃ board : Board,
    Transition.Reaches (Board.step noQuantities [hostNode "a"]) (fun _ _ => True) bare board ∧
      ∃ earlier later, board.placed = [earlier, later] ∧ Repels [hostNode "a"] earlier later := by
  refine Transition.exists_reaches_of
    [placing "a" (labelled "db" (apartFrom "web")), placing "a" (labelled "web" [])] (fun board =>
      decide (board.placed = [("a", labelled "db" (apartFrom "web")), ("a", labelled "web" [])]))
    (by decide +kernel) fun board _ both => ?_
  refine ⟨_, _, of_decide_eq_true both, ?_⟩
  exact ⟨_, mem_singleton_self _, by decide +kernel, "a", by decide +kernel, by decide +kernel⟩

end Rustkube.Affinity
