import Mathlib.Order.Bounds.Image
import Rustkube.ControllerObjects
import Rustkube.Rollout

/- The HorizontalPodAutoscaler's controller, from a recommendation to the count it writes. -/
namespace Rustkube.Autoscaler

open Json Controllers Rollout

/-- `number as u32` -/
def u32 (number : Int) : Nat := (number % 2 ^ 32).toNat

/-- What an operation on `i64`s leaves. -/
def i64 (number : Int) : Int := (number + 2 ^ 63) % 2 ^ 64 - 2 ^ 63

theorem u32_of_lt {number : Int} (low : 0 ≤ number) (high : number < 2 ^ 32) :
    u32 number = number.toNat := by
  unfold u32
  omega

theorem u32_lt (number : Int) : u32 number < 2 ^ 32 := by
  unfold u32
  omega

inductive Select where
  | max
  | min
  | disabled
deriving DecidableEq

/-- How much may change in a period, in Pods or in percent. -/
structure Policy where
  pods : Bool
  value : Int
  period : Nat
deriving DecidableEq

structure Rules where
  window : Nat
  select : Select
  policies : List Policy
deriving DecidableEq

def policy? (policy : Value) : Option Policy := do
  let kind ← policy["type"].asStr?
  let value ← policy["value"].asI64?
  let period ← count? policy["periodSeconds"]
  some ⟨kind == "Pods", value, period⟩

def defaultPolicies (up : Bool) : List Policy :=
  if up then [⟨false, 100, 15⟩, ⟨true, 4, 15⟩] else [⟨false, 100, 15⟩]

/-- `spec.behavior.scaleUp` or `scaleDown`, with the defaults for what is not set. -/
def rules (hpa : Value) (up : Bool) : Rules :=
  let behavior := hpa["spec"]["behavior"][if up then "scaleUp" else "scaleDown"]
  let policies := (behavior["policies"].asArray?.getD []).filterMap policy?
  { window := (count? behavior["stabilizationWindowSeconds"]).getD (if up then 0 else 300)
    select := match behavior["selectPolicy"].asStr? with
      | some "Min" => .min
      | some "Disabled" => .disabled
      | _ => .max
    policies := if policies.isEmpty then defaultPolicies up else policies }

/-- What is kept in memory of an HPA: what was recommended, and by how much it was scaled. Instants
are in nanoseconds. -/
structure History where
  recommendations : List (Nat × Nat)
  events : List (Nat × Int)

def History.empty : History := ⟨[], []⟩

/-- `now.duration_since(then).as_secs()` -/
def secondsSince (now instant : Nat) : Nat := (now - instant) / 10 ^ 9

section

variable (history : History) (now desired current : Nat) (up down : Rules)

def recent : List (Nat × Nat) :=
  history.recommendations.filter fun (instant, _) =>
    secondsSince now instant ≤ max up.window down.window

/-- The lowest recommendation in the window of a scale-up. -/
def upRecommendation : Nat :=
  (recent history now up down).foldl (fun lowest (instant, count) =>
    if secondsSince now instant ≤ up.window then min lowest count else lowest) desired

/-- The highest recommendation in the window of a scale-down. -/
def downRecommendation : Nat :=
  (recent history now up down).foldl (fun highest (instant, count) =>
    if secondsSince now instant ≤ down.window then max highest count else highest) desired

def stabilize : Nat :=
  min (max current (upRecommendation history now desired up down))
    (downRecommendation history now desired up down)

/-- The history after it. -/
def History.record : History :=
  { history with recommendations := recent history now up down ++ [(now, desired)] }

end

section

/-- The replicas that were added and removed in the last `period` seconds. -/
def changedIn (history : History) (now period : Nat) : Int × Int :=
  (history.events.filter fun (instant, _) => secondsSince now instant ≤ period).foldl
    (fun (added, removed) (_, delta) =>
      if 0 < delta then (i64 (added + delta), removed) else (added, i64 (removed - delta))) (0, 0)

-- `percent` is what a policy in percent proposes, from the count its period started with.
variable (percent : (up : Bool) → (start value : Int) → Int) (history : History)
  (now desired current low high : Nat) (up down : Rules)

def start (period : Nat) : Int :=
  let (added, removed) := changedIn history now period
  i64 (i64 (current - added) + removed)

def proposal (increase : Bool) (policy : Policy) : Int :=
  let start := start history now current policy.period
  if policy.pods then i64 (if increase then start + policy.value else start - policy.value)
  else i64 (percent increase start policy.value)

/-- What the policies let the count rise to, before it is made a `u32`. -/
def upRoom : Int :=
  let proposals := up.policies.map (proposal percent history now current true)
  max (match up.select with
    | .disabled => current
    | .min => proposals.min?.getD current
    | .max => proposals.max?.getD current) current

def upLimit : Nat := u32 (upRoom percent history now current up)

/-- What they let it fall to. The policy that allows the largest change proposes the least. -/
def downRoom : Int :=
  let proposals := down.policies.map (proposal percent history now current false)
  max (min (match down.select with
    | .disabled => current
    | .min => proposals.max?.getD current
    | .max => proposals.min?.getD current) current) 0

def downLimit : Nat := u32 (downRoom percent history now current down)

def tooMany : String × String :=
  ("TooManyReplicas", "the desired replica count is more than the maximum replica count")

def tooFew : String × String :=
  ("TooFewReplicas", "the desired replica count is less than the minimum replica count")

def scaleUpLimit : String × String := ("ScaleUpLimit",
  "the desired replica count is increasing faster than the maximum scale rate")

def scaleDownLimit : String × String := ("ScaleDownLimit",
  "the desired replica count is decreasing faster than the maximum scale rate")

/-- The rate policies, then the bounds: the count, and why it is limited. -/
def limit : Nat × Option (String × String) :=
  if current < desired then
    let most := upLimit percent history now current up
    if min high most < desired then
      if most < high then (most, some scaleUpLimit) else (high, some tooMany)
    else (desired, none)
  else if desired < current then
    let least := downLimit percent history now current down
    if desired < max low least then
      if low < least then (least, some scaleDownLimit) else (low, some tooFew)
    else (desired, none)
  else if high < desired then (high, some tooMany)
  else if desired < low then (low, some tooFew)
  else (desired, none)

end

section

structure Condition where
  kind : String
  status : Bool
  reason : String
  message : String

structure Status where
  desiredReplicas : Nat
  conditions : List Condition

/-- What a pass comes to: the count it writes to the target, the status it then writes, and what it
keeps in memory. -/
structure Evaluation where
  scaled : Option Nat
  status : Option Status
  history : History

def minReplicas (hpa : Value) : Nat := u32 ((count? hpa["spec"]["minReplicas"]).getD 1)

def maxReplicas (hpa : Value) : Nat := u32 ((count? hpa["spec"]["maxReplicas"]).getD 10)

def replicasOf (target : Value) : Nat := u32 ((count? target["spec"]["replicas"]).getD 1)

/-- What the metrics came to: a count and the resources it is from, or why there is none. -/
abbrev Measured : Type := Except String (Nat × String)

def ableToScale : Condition :=
  ⟨"AbleToScale", true, "SucceededGetScale",
    "the HPA controller was able to get the target's current scale"⟩

def noTarget (hpa : Value) : Condition :=
  let ref := hpa["spec"]["scaleTargetRef"]
  ⟨"AbleToScale", false, "FailedGetScale",
    "the HPA controller was unable to get the target's current scale: " ++ textOf ref["kind"] ++
      " \"" ++ textOf ref["name"] ++ "\" not found or not supported"⟩

def rescaled (desired current : Nat) : Condition :=
  if desired = current then
    ⟨"AbleToScale", true, "ReadyForNewScale", "recommended size matches current size"⟩
  else ⟨"AbleToScale", true, "SucceededRescale",
    "the HPA controller was able to update the target scale to " ++ toString desired⟩

def scalingLimited : Option (String × String) → Condition
  | some (reason, message) => ⟨"ScalingLimited", true, reason, message⟩
  | none => ⟨"ScalingLimited", false, "DesiredWithinRange",
      "the desired count is within the acceptable range"⟩

variable (percent : (up : Bool) → (start value : Int) → Int)

/-- The count that a recommendation comes to, and why it is limited. -/
def desiredCount (history : History) (now recommended current low high : Nat) (up down : Rules) :
    Nat × Option (String × String) :=
  limit percent (history.record now recommended up down) now
    (stabilize history now recommended current up down) current low high up down

/-- `reconcile_hpa`. Without a target, with none of it running or with nothing measured, nothing is
changed. When the target's write does not land the pass ends there, with no status. -/
def reconcileHpa (hpa : Value) (target : Option Value) (measured : Measured) (lands : Bool)
    (history : History) (now : Nat) : Evaluation :=
  match target with
  | none =>
    ⟨none, some ⟨(count? hpa["status"]["currentReplicas"]).getD 0, [noTarget hpa]⟩, history⟩
  | some target =>
    let current := replicasOf target
    if current = 0 then
      ⟨none, some ⟨current, [ableToScale, ⟨"ScalingActive", false, "ScalingDisabled",
        "scaling is disabled since the replica count of the target is zero"⟩]⟩, history⟩
    else
      match measured with
      | .error why =>
        ⟨none, some ⟨current, [ableToScale, ⟨"ScalingActive", false, "FailedGetResourceMetric",
          "the HPA was unable to compute the replica count: " ++ why⟩]⟩, history⟩
      | .ok (recommended, resources) =>
        let up := rules hpa true
        let down := rules hpa false
        let (desired, limited) := desiredCount percent history now recommended current
          (minReplicas hpa) (maxReplicas hpa) up down
        let recorded := history.record now recommended up down
        let status : Status := ⟨desired, [rescaled desired current, ⟨"ScalingActive", true,
          "ValidMetricFound", "the HPA was able to successfully calculate a replica count from " ++
            resources ++ " resource utilization"⟩, scalingLimited limited]⟩
        if desired = current then ⟨none, some status, recorded⟩
        else if lands then
          ⟨some desired, some status,
            { recorded with events := recorded.events ++ [(now, (desired : Int) - current)] }⟩
        else ⟨some desired, none, recorded⟩

end

section

variable {percent : (up : Bool) → (start value : Int) → Int} {history : History}
  {now desired current low high : Nat} {up down : Rules}

theorem limit_up (rising : current < desired) :
    (limit percent history now desired current low high up down).1 =
      min desired (min high (upLimit percent history now current up)) := by
  unfold limit
  dsimp only
  split_ifs <;> dsimp only <;> omega

theorem limit_down (falling : desired < current) :
    (limit percent history now desired current low high up down).1 =
      max desired (max low (downLimit percent history now current down)) := by
  unfold limit
  dsimp only
  split_ifs <;> dsimp only <;> omega

theorem downLimit_le (fits : current < 2 ^ 32) :
    downLimit percent history now current down ≤ current := by
  unfold downLimit downRoom
  dsimp only
  rw [u32_of_lt (by omega) (by omega)]
  omega

/-- Where the count is to rise, the recommendation and the rate reach the least count; where it is
to fall, they reach the greatest. -/
structure Reaches (low high desired current most least : Nat) : Prop where
  rising : current < desired → low ≤ desired ∧ low ≤ most
  falling : desired < current → desired ≤ high ∧ least ≤ high

theorem limit_bounds_iff (ordered : low ≤ high) :
    (low ≤ (limit percent history now desired current low high up down).1 ∧
      (limit percent history now desired current low high up down).1 ≤ high) ↔
    Reaches low high desired current (upLimit percent history now current up)
      (downLimit percent history now current down) := by
  rcases Nat.lt_trichotomy current desired with rising | same | falling
  · rw [limit_up rising]
    constructor
    · intro within
      exact ⟨fun _ => by omega, fun falls => by omega⟩
    · intro reaches
      have := reaches.rising rising
      omega
  · constructor
    · intro _
      exact ⟨fun rises => by omega, fun falls => by omega⟩
    · intro _
      unfold limit
      split_ifs <;> dsimp only <;> omega
  · rw [limit_down falling]
    constructor
    · intro within
      exact ⟨fun rises => by omega, fun _ => by omega⟩
    · intro reaches
      have := reaches.falling falling
      omega

theorem Reaches.of_within (fits : current < 2 ^ 32) (within : low ≤ current ∧ current ≤ high)
    (room : upRoom percent history now current up < 2 ^ 32) :
    Reaches low high desired current (upLimit percent history now current up)
      (downLimit percent history now current down) := by
  have least : downLimit percent history now current down ≤ current := downLimit_le fits
  have above : (current : Int) ≤ upRoom percent history now current up := by
    unfold upRoom
    dsimp only
    omega
  have most : current ≤ upLimit percent history now current up := by
    unfold upLimit
    rw [u32_of_lt (by omega) room]
    omega
  exact ⟨fun _ => by omega, fun _ => by omega⟩

end

variable (percent : (up : Bool) → (start value : Int) → Int)

section

variable (percent : (up : Bool) → (start value : Int) → Int) (history : History)
  (now recommended current low high : Nat) (up down : Rules)

/-- The new recommendation, and those of the last `window` seconds. -/
def inWindow (window : Nat) : List Nat :=
  recommended :: (history.recommendations.filter fun (instant, _) =>
    secondsSince now instant ≤ window).map Prod.snd

/-- What a policy that proposes so many lets the count come to. -/
def allowed (increase : Bool) (proposed : Int) : Int :=
  if increase then max proposed current else max (min proposed current) 0

/-- Where the policies stop the count: at the farthest that one of them allows, or the nearest with
`Min`; where it must not change, at what it is. -/
def StopsAt (increase : Bool) (rules : Rules) (stop : Int) : Prop :=
  let proposals := rules.policies.map (proposal percent history now current increase)
  let stops := allowed current increase '' {proposed | proposed ∈ proposals}
  if rules.select = .disabled ∨ proposals = [] then stop = current
  else if (rules.select = .max ↔ increase) then IsGreatest stops stop
  else IsLeast stops stop

/-- Where all recent recommendations are above the count, they and the policies reach the least
count; where all are below it, they reach the greatest. -/
structure WithinReach : Prop where
  rising : (∀ count ∈ inWindow history now recommended up.window, current < count) →
    (∀ count ∈ inWindow history now recommended up.window, low ≤ count) ∧
      ∀ stop, StopsAt percent history now current true up stop → low ≤ u32 stop
  falling : (∀ count ∈ inWindow history now recommended down.window, count < current) →
    (∀ count ∈ inWindow history now recommended down.window, count ≤ high) ∧
      ∀ stop, StopsAt percent history now current false down stop → u32 stop ≤ high

end

section

variable {percent : (up : Bool) → (start value : Int) → Int} {history : History}
  {now recommended current low high : Nat} {up down : Rules}

theorem forall_inWindow {window : Nat} {p : Nat → Prop} :
    (∀ count ∈ inWindow history now recommended window, p count) ↔ p recommended ∧
      ∀ entry ∈ history.recommendations, secondsSince now entry.1 ≤ window → p entry.2 := by
  simp only [inWindow, List.forall_mem_cons, List.forall_mem_map, List.mem_filter,
    decide_eq_true_eq, and_imp]

theorem foldl_window (entries : List (Nat × Nat)) (inside : Nat → Prop) [DecidablePred inside]
    (pick : Nat → Nat → Nat) (p : Nat → Prop) (picks : ∀ a b, p (pick a b) ↔ p a ∧ p b)
    (first : Nat) :
    p (entries.foldl (fun best (instant, count) =>
        if inside instant then pick best count else best) first) ↔
      p first ∧ ∀ entry ∈ entries, inside entry.1 → p entry.2 := by
  induction entries generalizing first with
  | nil => simp
  | cons entry entries ih =>
    rw [List.foldl_cons, ih, List.forall_mem_cons]
    by_cases within : inside entry.1
    · simp only [within, if_true, picks, true_imp_iff, and_assoc]
    · simp only [within, if_false, false_imp_iff, true_and]

/-- What is older than a window does not matter to it. -/
theorem forall_recent {window : Nat} (covered : window ≤ max up.window down.window)
    (p : Nat → Prop) :
    (∀ entry ∈ recent history now up down, secondsSince now entry.1 ≤ window → p entry.2) ↔
      ∀ entry ∈ history.recommendations, secondsSince now entry.1 ≤ window → p entry.2 := by
  simp only [recent, List.mem_filter, decide_eq_true_eq, and_imp]
  exact forall₂_congr fun entry _ =>
    ⟨fun recent young => recent (young.trans covered) young, fun within _ => within⟩

theorem upRecommendation_iff (down : Rules) {p : Nat → Prop}
    (picks : ∀ a b, p (min a b) ↔ p a ∧ p b) :
    p (upRecommendation history now recommended up down) ↔
      ∀ count ∈ inWindow history now recommended up.window, p count := by
  rw [upRecommendation, foldl_window _ (secondsSince now · ≤ up.window) min p picks,
    forall_recent (le_max_left _ _), forall_inWindow]

theorem downRecommendation_iff (up : Rules) {p : Nat → Prop}
    (picks : ∀ a b, p (max a b) ↔ p a ∧ p b) :
    p (downRecommendation history now recommended up down) ↔
      ∀ count ∈ inWindow history now recommended down.window, p count := by
  rw [downRecommendation, foldl_window _ (secondsSince now · ≤ down.window) max p picks,
    forall_recent (le_max_right up.window down.window), forall_inWindow]

theorem upRecommendation_le_down :
    upRecommendation history now recommended up down ≤
      downRecommendation history now recommended up down := by
  have first : recommended ∈ inWindow history now recommended up.window := List.mem_cons_self ..
  apply le_trans (b := recommended)
  · exact (upRecommendation_iff down (p := (_ ≤ ·)) fun _ _ => Nat.le_min).mp le_rfl
      recommended first
  · exact (downRecommendation_iff up (p := (· ≤ _)) fun _ _ => Nat.max_le).mp le_rfl recommended
      (List.mem_cons_self ..)

theorem allowed_le_allowed (current : Nat) (increase : Bool) {low high : Int} (le : low ≤ high) :
    allowed current increase low ≤ allowed current increase high := by
  cases increase <;> simp only [allowed, if_true, Bool.false_eq_true, if_false] <;> omega

theorem isLeast_min? {proposals : List Int} (any : proposals ≠ []) (other : Int) :
    IsLeast {proposed | proposed ∈ proposals} (proposals.min?.getD other) := by
  obtain ⟨least, found⟩ := Option.ne_none_iff_exists'.mp (mt List.min?_eq_none_iff.mp any)
  rw [found]
  exact List.min?_eq_some_iff.mp found

theorem isGreatest_max? {proposals : List Int} (any : proposals ≠ []) (other : Int) :
    IsGreatest {proposed | proposed ∈ proposals} (proposals.max?.getD other) := by
  obtain ⟨greatest, found⟩ := Option.ne_none_iff_exists'.mp (mt List.max?_eq_none_iff.mp any)
  rw [found]
  exact List.max?_eq_some_iff.mp found

/-- What is allowed of the least proposal is the least that is allowed, and of the greatest the
greatest. -/
theorem stopsAt_iff {increase : Bool} {rules : Rules} {stop : Int} :
    StopsAt percent history now current increase rules stop ↔
      stop = if increase then upRoom percent history now current rules
        else downRoom percent history now current rules := by
  obtain ⟨window, select, policies⟩ := rules
  rcases eq_or_ne (policies.map (proposal percent history now current increase)) [] with none | any
  · cases increase <;> cases select <;> simp [StopsAt, upRoom, downRoom, none]
  have mono : Monotone (allowed current increase) := fun _ _ => allowed_le_allowed current increase
  have least := Monotone.map_isLeast mono (isLeast_min? any current)
  have greatest := Monotone.map_isGreatest mono (isGreatest_max? any current)
  cases select with
  | disabled => cases increase <;> simp [StopsAt, upRoom, downRoom]
  | min =>
    cases increase
    · simp only [StopsAt, any, reduceCtorEq, Bool.false_eq_true, or_self, iff_self, if_true,
        if_false]
      exact ⟨fun stops => IsGreatest.unique stops greatest, fun eq => eq ▸ greatest⟩
    · simp only [StopsAt, any, reduceCtorEq, or_self, false_iff, not_true_eq_false, if_true,
        if_false]
      exact ⟨fun stops => IsLeast.unique stops least, fun eq => eq ▸ least⟩
  | max =>
    cases increase
    · simp only [StopsAt, any, reduceCtorEq, Bool.false_eq_true, or_self, iff_false,
        not_true_eq_false, if_false]
      exact ⟨fun stops => IsLeast.unique stops least, fun eq => eq ▸ least⟩
    · simp only [StopsAt, any, reduceCtorEq, or_self, iff_self, if_true, if_false]
      exact ⟨fun stops => IsGreatest.unique stops greatest, fun eq => eq ▸ greatest⟩

end

theorem desiredCount_within (history : History) (now recommended current low high : Nat)
    (up down : Rules) (ordered : low ≤ high) :
    (low ≤ (desiredCount percent history now recommended current low high up down).1 ∧
      (desiredCount percent history now recommended current low high up down).1 ≤ high) ↔
    WithinReach percent history now recommended current low high up down := by
  have sorted := @upRecommendation_le_down history now recommended up down
  rw [desiredCount, limit_bounds_iff ordered]
  constructor
  · intro reaches
    refine ⟨fun all => ?_, fun all => ?_⟩
    · have rises := (upRecommendation_iff down fun _ _ => Nat.lt_min).mpr all
      have reached := reaches.rising (by unfold stabilize; omega)
      refine ⟨(upRecommendation_iff down fun _ _ => Nat.le_min).mp
        (by unfold stabilize at reached; omega), fun stop stops => ?_⟩
      exact (stopsAt_iff.mp stops) ▸ reached.2
    · have falls := (downRecommendation_iff up fun _ _ => Nat.max_lt).mpr all
      have reached := reaches.falling (by unfold stabilize; omega)
      refine ⟨(downRecommendation_iff up fun _ _ => Nat.max_le).mp
        (by unfold stabilize at reached; omega), fun stop stops => ?_⟩
      exact (stopsAt_iff.mp stops) ▸ reached.2
  · intro within
    refine ⟨fun rises => ?_, fun falls => ?_⟩
    · have reached := within.rising
        ((upRecommendation_iff down fun _ _ => Nat.lt_min).mp (by
          unfold stabilize at rises; omega))
      have low := (upRecommendation_iff down fun _ _ => Nat.le_min).mpr reached.1
      exact ⟨by unfold stabilize at rises ⊢; omega, reached.2 _ (stopsAt_iff.mpr rfl)⟩
    · have reached := within.falling
        ((downRecommendation_iff up fun _ _ => Nat.max_lt).mp (by
          unfold stabilize at falls; omega))
      have high := (downRecommendation_iff up fun _ _ => Nat.max_le).mpr reached.1
      exact ⟨by unfold stabilize at falls ⊢; omega, reached.2 _ (stopsAt_iff.mpr rfl)⟩

/-- What a policy in percent proposes where nothing is rounded but the result. -/
def percentOf (up : Bool) (start value : Int) : Int :=
  if up then -(-(start * (100 + value)) / 100) else (start * (100 - value)).tdiv 100

/-- An HPA of a Deployment that may have five to ten replicas and grows by at most four Pods in
fifteen seconds. -/
def slow : Value :=
  .object [("spec", .object [
    ("scaleTargetRef", .object [("kind", .string "Deployment"), ("name", .string "web")]),
    ("minReplicas", .number 5), ("maxReplicas", .number 10),
    ("behavior", .object [("scaleUp", .object [("policies", .array [
      .object [("type", .string "Pods"), ("value", .number 4),
        ("periodSeconds", .number 15)]])])])])]

def running (replicas : Nat) : Value :=
  .object [("spec", .object [("replicas", .number replicas)])]

theorem desiredCount_within_slow :
    5 ≤ (desiredCount percentOf .empty 0 12 8 5 10 (rules slow true) (rules slow false)).1 ∧
      (desiredCount percentOf .empty 0 12 8 5 10 (rules slow true) (rules slow false)).1 ≤ 10 :=
  (desiredCount_within percentOf .empty 0 12 8 5 10 (rules slow true) (rules slow false)
    (by decide)).mpr ⟨fun _ => ⟨by decide +kernel, fun stop stops => by
      rw [stopsAt_iff.mp stops]
      decide +kernel⟩, fun falls => absurd falls (by decide +kernel)⟩

theorem scaled_below_minReplicas :
    minReplicas slow = 5 ∧ maxReplicas slow = 10 ∧ replicasOf (running 1) = 1 ∧
      (reconcileHpa percentOf slow (some (running 1)) (.ok (3, "cpu")) true .empty 0).scaled =
        some 3 := by
  decide +kernel

/-- An HPA's target, and what is remembered of it. -/
structure State where
  target : Value
  history : History

/-- A pass: what the metrics came to, whether the write lands, and when it is. -/
structure Pass where
  measured : Measured
  lands : Bool
  now : Nat

def scaleTo (target : Value) (replicas : Nat) : Value :=
  (target.assignIn "spec" "replicas" (.number replicas)).getD target

variable (hpa : Value)

def step (state : State) (pass : Pass) : Option State :=
  let outcome := reconcileHpa percent hpa (some state.target) pass.measured pass.lands state.history
    pass.now
  some
    { target := if pass.lands then outcome.scaled.elim state.target (scaleTo state.target)
        else state.target
      history := outcome.history }

/-- The room that the policies leave fits a `u32`. -/
def roomFits (state : State) (pass : Pass) : Prop :=
  upRoom percent state.history pass.now (replicasOf state.target) (rules hpa true) < 2 ^ 32

def Within (replicas : Nat) : Prop := minReplicas hpa ≤ replicas ∧ replicas ≤ maxReplicas hpa

variable {percent} {hpa}

/-- A pass that writes to the target writes the count that its recommendation comes to. -/
theorem reconcileHpa_scaled {target : Value} {measured : Measured} {lands : Bool}
    {history : History} {now replicas : Nat}
    (wrote : (reconcileHpa percent hpa (some target) measured lands history now).scaled =
      some replicas) :
    ∃ recommended,
      (desiredCount percent history now recommended (replicasOf target) (minReplicas hpa)
      (maxReplicas hpa) (rules hpa true) (rules hpa false)).1 = replicas := by
  unfold reconcileHpa at wrote
  dsimp only at wrote
  by_cases idle : replicasOf target = 0
  · rw [if_pos idle] at wrote
    cases wrote
  · rw [if_neg idle] at wrote
    cases measured with
    | error why => cases wrote
    | ok recommendation =>
      refine ⟨recommendation.1, ?_⟩
      dsimp only at wrote
      split_ifs at wrote <;> exact Option.some.inj wrote

theorem replicasOf_scaleTo {replicas : Nat} (small : replicas < 2 ^ 32) (target : Value) :
    replicasOf (scaleTo target replicas) = replicas ∨
      replicasOf (scaleTo target replicas) = replicasOf target := by
  unfold scaleTo
  cases wrote : target.assignIn "spec" "replicas" (.number replicas) with
  | none => exact .inr rfl
  | some written =>
    have fits : replicas < 2 ^ 64 := by omega
    have counted : count? written["spec"]["replicas"] = some replicas := by
      rw [Value.assignIn_self wrote, count?_number fits]
    refine .inl ?_
    rw [Option.getD_some, replicasOf, counted, Option.getD_some, u32_of_lt (by omega) (by omega),
      Int.toNat_natCast]

theorem step_within (ordered : minReplicas hpa ≤ maxReplicas hpa) {state next : State} {pass : Pass}
    (within : Within hpa (replicasOf state.target)) (fits : roomFits percent hpa state pass)
    (taken : step percent hpa state pass = some next) : Within hpa (replicasOf next.target) := by
  cases taken
  cases pass.lands with
  | false => exact within
  | true =>
    cases wrote : (reconcileHpa percent hpa (some state.target) pass.measured true state.history
        pass.now).scaled with
    | none => exact within
    | some replicas =>
      have ⟨recommended, decided⟩ := reconcileHpa_scaled wrote
      have bounds : Within hpa replicas := by
        rw [← decided]
        exact (limit_bounds_iff ordered).mpr (Reaches.of_within (u32_lt _) within fits)
      have small : maxReplicas hpa < 2 ^ 32 := u32_lt _
      rcases replicasOf_scaleTo (lt_of_le_of_lt bounds.2 small) state.target with scaled | refused
      · exact scaled.symm ▸ bounds
      · exact refused.symm ▸ within

/-- A target that starts between its bounds stays there, whatever is measured and whichever writes
are lost. -/
theorem runs_within (ordered : minReplicas hpa ≤ maxReplicas hpa) {start state : State}
    (within : Within hpa (replicasOf start.target))
    (reached : Transition.Reaches (step percent hpa) (roomFits percent hpa) start state) :
    Within hpa (replicasOf state.target) :=
  reached.invariant within fun _ _ _ held fits taken => step_within ordered held fits taken

/-- The metrics ask for twelve replicas where there are eight. -/
theorem runs_within_slow : ∃ state,
    Transition.Reaches (step percentOf slow) (roomFits percentOf slow) ⟨running 8, .empty⟩ state ∧
      Within slow (replicasOf state.target) ∧ replicasOf state.target = 10 := by
  have fits : roomFits percentOf slow ⟨running 8, .empty⟩ ⟨.ok (12, "cpu"), true, 0⟩ := by
    unfold roomFits
    decide +kernel
  have reached : Transition.Reaches (step percentOf slow) (roomFits percentOf slow) _ _ :=
    .next .start fits rfl
  exact ⟨_, reached, runs_within (by decide) ⟨by decide, by decide⟩ reached, by decide +kernel⟩

end Rustkube.Autoscaler
