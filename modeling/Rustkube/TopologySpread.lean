import Rustkube.Lib.Counted
import Rustkube.PodAffinity

namespace Rustkube.Spread

open Counted List Option Tally Affinity Json PodResources Scheduler

/-- A Pod that counts for a constraint, on a node that has a domain. Spread is within a
namespace. -/
def countedIn (constraint : Value) (podNs : String) (nodes : List Value) (entry : String × Value) :
    Option String :=
  if namespaceOf entry.2 = podNs ∧
      selectorMatches constraint["labelSelector"] entry.2["metadata"]["labels"] = true then
    domainAt nodes entry.1 (topologyKey constraint)
  else none

/-- The rounds that `selector_matches` takes at most: its labels, its expressions, and the values of
each, once to collect them and once to compare. -/
def selectorSize (selector : Value) : Nat :=
  (selector["matchLabels"].asObject?.getD []).length +
    ((items selector["matchExpressions"]).map fun expr => 1 + 2 * (items expr["values"]).length).sum

section

variable (constraint : Value) (podNs : String) (nodes : List Value) (cluster : ClusterState)

/-- The domain of a node, with no Pods yet. -/
def addDomain (counts : Tally Int) (node : Value) : Tally Int :=
  match domainOf node (topologyKey constraint) with
  | some domain => counts.alter domain (·.getD 0)
  | none => counts

/-- A node under its name, before those that came earlier. -/
def addName (names : List (String × Value)) (node : Value) : List (String × Value) :=
  match node["metadata"]["name"].asStr? with
  | some name => (name, node) :: names
  | none => names

/-- One Pod that is placed. -/
def countPod (names : List (String × Value)) (counts : Tally Int) (entry : String × Value) :
    Counted (Tally Int) := do
  if namespaceOf entry.2 ≠ podNs then pure counts
  else if ← within (selectorSize constraint["labelSelector"])
      (selectorMatches constraint["labelSelector"] entry.2["metadata"]["labels"]) then
    match (names.lookup entry.1).bind (domainOf · (topologyKey constraint)) with
    | some domain => pure (counts.alter domain fun count => count.getD 0 + 1)
    | none => pure counts
  else pure counts

def countsByDomain : Counted (Tally Int) := do
  let counts ← loop (fun counts node => pure (addDomain constraint counts node)) nodes .empty
  let names ← loop (fun names node => pure (addName names node)) nodes []
  loop (countPod constraint podNs names) cluster.placed counts

/-- `while vals.len() < min_domains { vals.push(0) }`, with the rounds that it takes. -/
def pad : Nat → List Int → Counted (List Int)
  | 0, vals => pure vals
  | rounds + 1, vals => do
    Counted.tick
    pad rounds (vals ++ [0])

/-- `vals.iter().max().unwrap_or(0)`, or `min`. -/
def best (choose : Int → Int → Int) : List Int → Counted Int
  | [] => pure 0
  | first :: rest => loop (fun best val => pure (choose best val)) rest first

/-- The skew that results from placing the Pod in `here`. -/
def skewIfPlaced (counts : Tally Int) (here : String) (minDomains : Int) : Counted Int := do
  let vals ← loop (fun vals entry =>
    pure (vals ++ [if entry.1 = here then entry.2 + 1 else entry.2])) counts.entries []
  let vals ← pad (minDomains - vals.length).toNat vals
  let max ← best max vals
  let min ← best min vals
  pure (max - min)

end

def whenUnsatisfiable (constraint : Value) : String :=
  constraint["whenUnsatisfiable"].asStr?.getD "DoNotSchedule"

def maxSkew (constraint : Value) : Int := max (constraint["maxSkew"].asI64?.getD 1) 1

def minDomains (constraint : Value) : Int := constraint["minDomains"].asI64?.getD 0

def constraints (pod : Value) : List Value := items pod["spec"]["topologySpreadConstraints"]

section

variable (pod node : Value) (nodes : List Value) (cluster : ClusterState)

/-- The skew over a constraint's domains once the Pod is in `here`. -/
def skewIn (constraint : Value) (here : String) : Counted Int := do
  let counts ← countsByDomain constraint (namespaceOf pod) nodes cluster
  skewIfPlaced counts here (minDomains constraint)

/-- One round of the filter. -/
def spreadConstraint (constraint : Value) : ExceptT String Counted Unit := do
  liftM Counted.tick
  if whenUnsatisfiable constraint ≠ "DoNotSchedule" then pure ()
  else
    let key := topologyKey constraint
    match domainOf node key with
    | none => throw ("node has no " ++ key ++ " label, required by topology spread")
    | some here => do
      let skew ← liftM (skewIn pod nodes cluster constraint here)
      if skew > maxSkew constraint then
        throw ("topology spread: placing here makes skew " ++ toString skew ++ " over " ++ key ++
          " (maxSkew " ++ toString (maxSkew constraint) ++ ")")
      else pure ()

/-- `DoNotSchedule` constraints, as a filter. -/
def spreadFilter : ExceptT String Counted Unit :=
  forM (constraints pod) (spreadConstraint pod node nodes cluster)

end

section

variable (pod constraint : Value) (nodes : List Value) (cluster : ClusterState)

/-- Some node is in the domain. -/
def IsDomain (domain : String) : Prop :=
  ∃ node ∈ nodes, domainOf node (topologyKey constraint) = some domain

/-- What one Pod adds to the counts. -/
def withPod (podNs : String) (counts : Tally Int) (entry : String × Value) : Tally Int :=
  match countedIn constraint podNs nodes entry with
  | some domain => counts.alter domain fun count => count.getD 0 + 1
  | none => counts

/-- The Pods that count in a domain. -/
def matching (domain : String) : Nat :=
  cluster.placed.countP fun entry =>
    countedIn constraint (namespaceOf pod) nodes entry = some domain

end

section

variable {constraint : Value} {podNs : String} {nodes : List Value} {cluster : ClusterState}

variable {domain : String} {entry : String × Value} {count : Int}

theorem lookup_foldl_addName (nodes : List Value) (name : String) :
    (nodes.foldl addName []).lookup name = byName nodes name := by
  unfold byName
  induction nodes using reverseRecOn with
  | nil => rfl
  | append_singleton before node ih =>
    rw [foldl_append, foldl_cons, foldl_nil, reverse_append, reverse_singleton, singleton_append,
      addName]
    cases own : node["metadata"]["name"].asStr? with
    | none => simpa [own] using ih
    | some other =>
      by_cases same : name = other
      · simp [own, same]
      · rw [lookup_cons_of_ne same, ih, find?_cons_of_neg (by simpa [own] using Ne.symm same)]

theorem value_countPod (counts : Tally Int) :
    (countPod constraint podNs (nodes.foldl addName []) counts entry).value =
      withPod constraint nodes podNs counts entry := by
  unfold countPod withPod countedIn domainAt
  rw [lookup_foldl_addName]
  by_cases same : namespaceOf entry.2 = podNs
  · rw [if_neg (not_not_intro same), value_bind, value_within]
    by_cases selected :
        selectorMatches constraint["labelSelector"] entry.2["metadata"]["labels"] = true
    · rw [if_pos selected, if_pos ⟨same, selected⟩]
      cases (byName nodes entry.1).bind (domainOf · (topologyKey constraint)) <;> rfl
    · rw [if_neg selected, if_neg fun both => selected both.2]
      rfl
  · rw [if_pos same, if_neg fun both => same both.1]
    rfl

theorem value_countsByDomain (constraint : Value) (podNs : String) (nodes : List Value)
    (cluster : ClusterState) : (countsByDomain constraint podNs nodes cluster).value =
      cluster.placed.foldl (withPod constraint nodes podNs)
        (nodes.foldl (addDomain constraint) .empty) := by
  simp only [countsByDomain, value_bind, value_loop, value_pure, value_countPod]

theorem get?_foldl_addDomain (domain : String) :
    ((nodes.foldl (addDomain constraint) .empty).get? domain = some 0 ∧
        IsDomain constraint nodes domain) ∨
      ((nodes.foldl (addDomain constraint) .empty).get? domain = none ∧
        ¬IsDomain constraint nodes domain) := by
  unfold IsDomain
  -- over the nodes from the last one back: each adds its own domain
  induction nodes using reverseRecOn with
  | nil => exact .inr ⟨rfl, by simp⟩
  | append_singleton before node ih =>
    rw [foldl_append, foldl_cons, foldl_nil, addDomain]
    simp only [mem_append, mem_singleton, or_and_right, exists_or, exists_eq_left]
    cases own : domainOf node (topologyKey constraint) with
    | none => simpa [own] using ih
    | some other =>
      by_cases same : domain = other
      · subst same
        rcases ih with ⟨held, _⟩ | ⟨held, _⟩ <;> simp [held]
      · rw [get?_alter_of_ne _ _ same]
        simpa [Ne.symm same] using ih

theorem get?_withPod_of_ne {counts : Tally Int}
    (elsewhere : countedIn constraint podNs nodes entry ≠ some domain) :
    (withPod constraint nodes podNs counts entry).get? domain = counts.get? domain := by
  unfold withPod
  cases own : countedIn constraint podNs nodes entry with
  | none => rfl
  | some other =>
    have apart : domain ≠ other := fun same => elsewhere (same ▸ own)
    exact get?_alter_of_ne _ _ apart

theorem get?_foldl_withPod (placed : List (String × Value)) (counts : Tally Int)
    (held : counts.get? domain = some count) :
    (placed.foldl (withPod constraint nodes podNs) counts).get? domain =
      some (count + placed.countP fun entry => countedIn constraint podNs nodes entry =
          some domain) := by
  induction placed generalizing counts count with
  | nil => simpa using held
  | cons entry rest ih =>
    rw [foldl_cons, countP_cons]
    by_cases own : countedIn constraint podNs nodes entry = some domain
    · have next : (withPod constraint nodes podNs counts entry).get? domain = some (count + 1) := by
        simp [withPod, own, held]
      rw [ih _ next]
      simp only [own, decide_true, if_true]
      congr 1
      omega
    · have next : (withPod constraint nodes podNs counts entry).get? domain = some count := by
        rw [get?_withPod_of_ne own, held]
      rw [ih _ next]
      simp [own]

theorem get?_foldl_withPod_none (placed : List (String × Value)) (counts : Tally Int)
    (none_ : ¬IsDomain constraint nodes domain) :
    (placed.foldl (withPod constraint nodes podNs) counts).get? domain = counts.get? domain := by
  induction placed generalizing counts with
  | nil => rfl
  | cons entry rest ih =>
    rw [foldl_cons, ih]
    refine get?_withPod_of_ne fun own => none_ ?_
    unfold countedIn at own
    split_ifs at own
    have ⟨node, found, here⟩ := bind_eq_some_iff.mp own
    exact ⟨node, mem_reverse.mp (mem_of_find?_eq_some found), here⟩

theorem get?_countsByDomain {pod : Value} :
    (countsByDomain constraint (namespaceOf pod) nodes cluster).value.get? domain = some count ↔
      IsDomain constraint nodes domain ∧ count = matching pod constraint nodes cluster domain := by
  rw [value_countsByDomain]
  rcases @get?_foldl_addDomain constraint nodes domain with ⟨held, isDomain⟩ | ⟨held, none_⟩
  · rw [get?_foldl_withPod _ _ held, zero_add, some_inj, matching]
    exact ⟨fun same => ⟨isDomain, same.symm⟩, fun ⟨_, same⟩ => same.symm⟩
  · rw [get?_foldl_withPod_none _ _ none_, held]
    simp [none_]

end

section

theorem value_best (vals : List Int) : (best max vals).value = vals.max?.getD 0 ∧
    (best min vals).value = vals.min?.getD 0 := by
  cases vals <;> simp [best, max?, min?]

theorem max_sub_min_le {vals : List Int} {bound : Int} (some_ : vals ≠ []) :
    vals.max?.getD 0 - vals.min?.getD 0 ≤ bound ↔ ∀ a ∈ vals, ∀ b ∈ vals, a - b ≤ bound := by
  have ⟨max, isMax⟩ := isSome_iff_exists.mp (isSome_max?_iff.mpr some_)
  have ⟨min, isMin⟩ := isSome_iff_exists.mp (isSome_min?_iff.mpr some_)
  rw [isMax, isMin, getD_some, getD_some]
  have ⟨maxMember, above⟩ := max?_eq_some_iff.mp isMax
  have ⟨minMember, below⟩ := min?_eq_some_iff.mp isMin
  constructor
  · intro close a isA b isB
    have := above a isA
    have := below b isB
    omega
  · intro close
    exact close max maxMember min minMember

variable {counts : Tally Int} {here : String} {bound minDomains : Int}

theorem value_skewIfPlaced (unset : minDomains ≤ 0) :
    (skewIfPlaced counts here minDomains).value =
      let vals := counts.entries.map fun (domain, count) =>
        if domain = here then count + 1 else count
      vals.max?.getD 0 - vals.min?.getD 0 := by
  have rounds (count : Nat) : (minDomains - count).toNat = 0 := by omega
  simp only [skewIfPlaced, value_bind, value_loop, value_pure, foldl_append_eq_append, nil_append,
    ← flatMap_def, ← map_eq_flatMap, rounds, pad, value_best]

/-- The skew is small if no domain is far above another, the Pod counted in `here`. -/
theorem skewIfPlaced_le {count : Int} (unset : minDomains ≤ 0)
    (held : counts.get? here = some count) : (skewIfPlaced counts here minDomains).value ≤ bound ↔
      ∀ high highCount low lowCount, counts.get? high = some highCount →
        counts.get? low = some lowCount →
        (if high = here then highCount + 1 else highCount) -
          (if low = here then lowCount + 1 else lowCount) ≤ bound := by
  have member : (here, count) ∈ counts.entries := get?_eq_some_iff.mp held
  have some_ : (counts.entries.map fun (domain, count) =>
      if domain = here then count + 1 else count) ≠ [] := by
    intro empty
    rw [map_eq_nil_iff.mp empty] at member
    cases member
  rw [value_skewIfPlaced unset]
  rw [max_sub_min_le some_]
  constructor
  · intro close high highCount low lowCount isHigh isLow
    exact close _ (mem_map.mpr ⟨_, get?_eq_some_iff.mp isHigh, rfl⟩) _
      (mem_map.mpr ⟨_, get?_eq_some_iff.mp isLow, rfl⟩)
  · intro close a isA b isB
    obtain ⟨⟨high, highCount⟩, isHigh, rfl⟩ := mem_map.mp isA
    obtain ⟨⟨low, lowCount⟩, isLow, rfl⟩ := mem_map.mp isB
    exact close _ _ _ _ (get?_eq_some_iff.mpr isHigh) (get?_eq_some_iff.mpr isLow)

end

variable {pod node constraint : Value} {nodes : List Value} {cluster : ClusterState} {here : String}

theorem spreadConstraint_ok :
    (spreadConstraint pod node nodes cluster constraint).run.value = .ok () ↔
      (whenUnsatisfiable constraint = "DoNotSchedule" → ∃ here,
        domainOf node (topologyKey constraint) = some here ∧
          (skewIn pod nodes cluster constraint here).value ≤ maxSkew constraint) := by
  unfold spreadConstraint
  rw [run_bind, value_lift]
  by_cases filters : whenUnsatisfiable constraint = "DoNotSchedule"
  · rw [if_neg (not_not_intro filters)]
    simp only [filters, forall_const]
    cases domainOf node (topologyKey constraint) with
    | none => simp
    | some here =>
      rw [run_bind, value_lift]
      dsimp only
      split_ifs with tooSkewed
      · simpa using tooSkewed
      · simpa using tooSkewed
  · rw [if_pos filters]
    exact iff_of_true rfl fun applies => absurd applies filters

theorem spreadFilter_ok :
    (spreadFilter pod node nodes cluster).run.value = .ok () ↔ ∀ constraint ∈ constraints pod,
      (spreadConstraint pod node nodes cluster constraint).run.value = .ok () :=
  value_forM

theorem minDomains_of_null (absent : constraint["minDomains"].isNull = true) :
    minDomains constraint ≤ 0 := by
  unfold minDomains
  cases stated : constraint["minDomains"] with
  | null => decide
  | _ =>
    rw [stated] at absent
    cases absent

/-- Whether a least loaded domain is open depends on how far the busiest is above it: at most
`maxSkew`, or one more if every other domain has more Pods than this one. -/
theorem least_loaded_open_iff (only : constraints pod = [constraint])
    (filters : whenUnsatisfiable constraint = "DoNotSchedule")
    (noMinDomains : constraint["minDomains"].isNull = true) (member : node ∈ nodes)
    (inDomain : domainOf node (topologyKey constraint) = some here)
    (least : ∀ domain, IsDomain constraint nodes domain →
      matching pod constraint nodes cluster here ≤ matching pod constraint nodes cluster domain) :
    (spreadFilter pod node nodes cluster).run.value = .ok () ↔
      (∀ domain, IsDomain constraint nodes domain →
        (matching pod constraint nodes cluster domain : Int) ≤
          matching pod constraint nodes cluster here + maxSkew constraint) ∨
      ∀ domain, IsDomain constraint nodes domain → domain ≠ here →
        matching pod constraint nodes cluster here < matching pod constraint nodes cluster domain ∧
        (matching pod constraint nodes cluster domain : Int) ≤
          matching pod constraint nodes cluster here + 1 + maxSkew constraint := by
  have isHere : IsDomain constraint nodes here := ⟨node, member, inDomain⟩
  have unset : minDomains constraint ≤ 0 := minDomains_of_null noMinDomains
  have positive : 1 ≤ maxSkew constraint := le_max_right ..
  have held := get?_countsByDomain.mpr (⟨isHere, rfl⟩ : IsDomain constraint nodes here ∧
    (matching pod constraint nodes cluster here : Int) = matching pod constraint nodes cluster here)
  rw [spreadFilter_ok, only, forall_mem_singleton, spreadConstraint_ok]
  simp only [filters, forall_const, inDomain, some_inj, exists_eq_left', skewIn,
    value_bind, skewIfPlaced_le unset held, get?_countsByDomain]
  constructor
  · intro close
    by_cases tie : ∃ other, IsDomain constraint nodes other ∧ other ≠ here ∧
        matching pod constraint nodes cluster other = matching pod constraint nodes cluster here
    · -- another domain stays at the least count, so all must be near that
      have ⟨other, isDomain, different, same⟩ := tie
      refine .inl fun domain isDomain' => ?_
      have near := close domain _ other _ ⟨isDomain', rfl⟩ ⟨isDomain, rfl⟩
      split_ifs at near <;> omega
    · refine .inr fun domain isDomain different => ?_
      have near := close domain _ here _ ⟨isDomain, rfl⟩ ⟨isHere, rfl⟩
      have atLeast := least domain isDomain
      have above : matching pod constraint nodes cluster domain ≠
          matching pod constraint nodes cluster here := fun same =>
            tie ⟨domain, isDomain, different, same⟩
      constructor <;> omega
  · rintro (near | near) high _ low _ ⟨isHigh, rfl⟩ ⟨isLow, rfl⟩
    · have := near high isHigh
      have := least low isLow
      split_ifs with first second second <;> subst_vars <;> omega
    · have := least low isLow
      by_cases first : high = here
      · subst first
        split_ifs <;> omega
      · have := near high isHigh first
        split_ifs with second
        · omega
        · have := near low isLow second
          omega

/-- In a zone of its own. -/
def zoneNode (name zone : String) : Value :=
  .object [("metadata", .object [("name", .string name),
    ("labels", .object [("topology.kubernetes.io/zone", .string zone)])])]

def overZones (more : List (String × Value)) : Value :=
  .object ([("maxSkew", .number 1), ("topologyKey", .string "topology.kubernetes.io/zone"),
    ("whenUnsatisfiable", .string "DoNotSchedule"),
    ("labelSelector", .object [("matchLabels", .object [("app", .string "web")])])] ++ more)

def webPod (constraints : List Value) : Value :=
  .object [("metadata", .object [("namespace", .string "default"),
      ("labels", .object [("app", .string "web")])]),
    ("spec", .object [("topologySpreadConstraints", .array constraints)])]

def twoZones : List Value := [zoneNode "n1" "a", zoneNode "n2" "b"]

/-- So many web servers in the first zone, and none in the second. -/
def crowded (count : Nat) : ClusterState :=
  ⟨fun _ => 0, List.replicate count ("n1", webPod [])⟩

theorem crowded_least (count : Nat) (domain : String) :
    matching (webPod [overZones []]) (overZones []) twoZones (crowded count) "b" ≤
      matching (webPod [overZones []]) (overZones []) twoZones (crowded count) domain := by
  have elsewhere : countedIn (overZones []) (namespaceOf (webPod [overZones []])) twoZones
      ("n1", webPod []) = some "a" := by
    decide +kernel
  have none_ : matching (webPod [overZones []]) (overZones []) twoZones (crowded count) "b" =
      0 := by
    refine countP_eq_zero.mpr fun entry member => ?_
    rw [eq_of_mem_replicate member, elsewhere]
    decide
  omega

/-- One web server in the first zone leaves the second open. -/
theorem least_loaded_open_iff_one :
    (spreadFilter (webPod [overZones []]) (zoneNode "n2" "b") twoZones (crowded 1)).run.value =
      .ok () := by
  refine (least_loaded_open_iff rfl (by decide +kernel) (by decide +kernel)
    (by decide +kernel : zoneNode "n2" "b" ∈ twoZones) (by decide +kernel)
    fun domain _ => crowded_least 1 domain).mpr (.inl ?_)
  rintro domain ⟨node, member, inDomain⟩
  have bounded : matching (webPod [overZones []]) (overZones []) twoZones (crowded 1) domain ≤ 1 :=
    countP_le_length
  have skew : maxSkew (overZones []) = 1 := by decide +kernel
  omega

/-- Three in the first zone close the second, which has none. -/
theorem least_loaded_refused :
    (∀ domain, IsDomain (overZones []) twoZones domain →
      matching (webPod [overZones []]) (overZones []) twoZones (crowded 3) "b" ≤
        matching (webPod [overZones []]) (overZones []) twoZones (crowded 3) domain) ∧
    domainOf (zoneNode "n2" "b") (topologyKey (overZones [])) = some "b" ∧
    (spreadFilter (webPod [overZones []]) (zoneNode "n2" "b") twoZones (crowded 3)).run.value =
      .error "topology spread: placing here makes skew 2 over topology.kubernetes.io/zone (maxSkew 1)" :=
  ⟨fun domain _ => crowded_least 3 domain, by decide +kernel, by decide +kernel⟩

/- Every round of a loop is a step. An entry of a map or of a vector is made in a round of its own,
so that the steps bound the memory as well. -/

section

variable {size : Nat} (few : minDomains constraint ≤ (nodes.length + cluster.placed.length : Nat))
  (short : selectorSize constraint["labelSelector"] ≤ size)

include few short

end

end Rustkube.Spread
