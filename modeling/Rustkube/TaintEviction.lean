import Mathlib
import Rustkube.PodResources

/- What `NoExecute` taints do to a Pod that is already on the node. -/
namespace Rustkube.Taint

open List Json PodResources

/-- For how long a toleration tolerates a taint, if it does. Without an end it is forever. -/
def tolerationMatches (toleration taint : Value) : Option (Option Int) :=
  let key := toleration["key"].asStr?.getD ""
  let effect := toleration["effect"].asStr?.getD ""
  let value := toleration["value"].asStr?.getD ""
  let operator := toleration["operator"].asStr?.getD "Equal"
  let taintKey := taint["key"].asStr?.getD ""
  if effect ≠ "" ∧ effect ≠ taint["effect"].asStr?.getD "" then none
  else
    let isMatch :=
      if operator = "Exists" then key = "" ∨ key = taintKey
      else if operator = "" ∨ operator = "Equal" then
        key = taintKey ∧ value = taint["value"].asStr?.getD ""
      else False
    if isMatch then some toleration["tolerationSeconds"].asI64? else none

/-- The longest toleration wins, and one without an end ends the search. -/
def longest (taint : Value) : Option (Option Int) → List Value → Option (Option Int)
  | best, [] => best
  | best, toleration :: rest =>
    match tolerationMatches toleration taint with
    | none => longest taint best rest
    | some none => some none
    | some (some seconds) =>
      longest taint
        (match best with
        | some (some before) => if seconds ≤ before then some (some before) else some (some seconds)
        | _ => some (some seconds)) rest

def podTolerates (pod taint : Value) : Option (Option Int) :=
  pod["spec"]["tolerations"].asArray?.bind (longest taint none)

inductive Verdict where
  | stay
  | evict (key : String)
  | evictIn (seconds : Int) (key : String)
deriving DecidableEq

def isNoExecute (taint : Value) : Bool := taint["effect"].asStr? = some "NoExecute"

def Verdict.ofSoonest : Option (Int × String) → Verdict
  | some (seconds, key) => .evictIn seconds key
  | none => .stay

/-- The loop of `verdict_for`, with the soonest eviction so far. The subtraction wraps. -/
def soonestOf (pod : Value) (ageSecs : Value → Int) : Option (Int × String) → List Value → Verdict
  | soonest, [] => .ofSoonest soonest
  | soonest, taint :: rest =>
    if isNoExecute taint then
      let key := taint["key"].asStr?.getD ""
      match podTolerates pod taint with
      | some none => soonestOf pod ageSecs soonest rest
      | none => .evict key
      | some (some seconds) =>
        let remaining := (seconds - ageSecs taint).bmod (2 ^ 64)
        if remaining ≤ 0 then .evict key
        else
          match soonest with
          | some (before, held) =>
            if before ≤ remaining then soonestOf pod ageSecs (some (before, held)) rest
            else soonestOf pod ageSecs (some (remaining, key)) rest
          | none => soonestOf pod ageSecs (some (remaining, key)) rest
    else soonestOf pod ageSecs soonest rest

def verdictFor (pod : Value) (taints : List Value) (ageSecs : Value → Int) : Verdict :=
  soonestOf pod ageSecs none taints

/-- How long the Pod stays. -/
def Verdict.delay : Verdict → ℕ∞
  | .stay => ⊤
  | .evict _ => 0
  | .evictIn seconds _ => seconds.toNat

/-- What is left at `age` of the time that a taint is tolerated. -/
def remaining (age : Int) : Option (Option Int) → ℕ∞
  | none => 0
  | some none => ⊤
  | some (some seconds) => (seconds - age).toNat

/-- The least over the taints of what is left of the longest toleration. -/
noncomputable def due (pod : Value) (taints : List Value) (ageSecs : Value → Int) : ℕ∞ :=
  ⨅ taint ∈ taints.filter isNoExecute, ⨆ toleration ∈ items pod["spec"]["tolerations"],
    remaining (ageSecs taint) (tolerationMatches toleration taint)

/-- The same as it is computed: the subtraction wraps. -/
def counted (age : Int) : Option (Option Int) → ℕ∞
  | some (some seconds) => ((seconds - age).bmod (2 ^ 64)).toNat
  | other => remaining age other

def taintKey (taint : Value) : String := taint["key"].asStr?.getD ""

section

variable (pod : Value) (taints : List Value) (ageSecs : Value → Int)

def timeLeft (taint : Value) : ℕ∞ := remaining (ageSecs taint) (podTolerates pod taint)

def timeCounted (taint : Value) : ℕ∞ := counted (ageSecs taint) (podTolerates pod taint)

/-- No taint of the list is counted as sooner. -/
def Soonest (taint : Value) : Prop :=
  taint ∈ taints ∧ ∀ other ∈ taints, timeCounted pod ageSecs taint ≤ timeCounted pod ageSecs other

/-- The taints by which the Pod leaves are of one key. If it may stay for some time, no taint that
it does not tolerate for ever is from the future, and otherwise a taint is counted as due. -/
structure Settled : Prop where
  oneKey : ∀ first second, Soonest pod (taints.filter isNoExecute) ageSecs first →
    Soonest pod (taints.filter isNoExecute) ageSecs second → timeCounted pod ageSecs first ≠ ⊤ →
    taintKey first = taintKey second
  begun : (∀ taint ∈ taints.filter isNoExecute, timeLeft pod ageSecs taint ≠ 0) →
    ∀ taint ∈ taints.filter isNoExecute, podTolerates pod taint ≠ some none → 0 ≤ ageSecs taint
  ended : ∀ taint ∈ taints.filter isNoExecute, timeLeft pod ageSecs taint = 0 →
    ∃ other ∈ taints.filter isNoExecute, timeCounted pod ageSecs other = 0

/-- The order of taints and tolerations does not matter, the delay is what is due, and one more
toleration only makes it longer. -/
structure Relaxes : Prop where
  order : ∀ other others, items other["spec"]["tolerations"] ~ items pod["spec"]["tolerations"] →
    others ~ taints → verdictFor other others ageSecs = verdictFor pod taints ageSecs
  delay : (verdictFor pod taints ageSecs).delay = due pod taints ageSecs
  longer : ∀ other toleration,
    items other["spec"]["tolerations"] ~ toleration :: items pod["spec"]["tolerations"] →
    (verdictFor pod taints ageSecs).delay ≤ (verdictFor other taints ageSecs).delay

end

variable {pod other taint : Value} {taints others : List Value} {ageSecs : Value → Int}

theorem toNat_mono {less more : Int} (le : less ≤ more) : (less.toNat : ℕ∞) ≤ more.toNat :=
  ENat.natCast_le_natCast.mpr (Int.toNat_le_toNat le)

theorem remaining_longest (age : Int) (best : Option Int) (tolerations : List Value) :
    remaining age (longest taint (best.map some) tolerations) = remaining age (best.map some) ⊔
      ⨆ toleration ∈ tolerations, remaining age (tolerationMatches toleration taint) := by
  induction tolerations generalizing best with
  | nil => simp [longest]
  | cons head rest ih =>
    simp only [mem_cons, iSup_or, iSup_sup_eq, iSup_iSup_eq_left]
    unfold longest
    cases tolerationMatches head taint with
    | none => exact (ih best).trans (by simp [remaining])
    | some limit =>
      cases limit with
      | none => simp [remaining]
      | some seconds =>
        cases best with
        | none => exact (ih (some seconds)).trans (by simp [remaining])
        | some before =>
          dsimp only [Option.map_some]
          rw [← sup_assoc]
          split_ifs with shorter
          · have less : remaining age (some (some seconds)) ≤ remaining age (some (some before)) :=
              toNat_mono (by omega)
            rw [sup_eq_left.mpr less]
            exact ih (some before)
          · have less : remaining age (some (some before)) ≤ remaining age (some (some seconds)) :=
              toNat_mono (by omega)
            rw [sup_eq_right.mpr less]
            exact ih (some seconds)

theorem remaining_podTolerates (age : Int) : remaining age (podTolerates pod taint) =
    ⨆ toleration ∈ items pod["spec"]["tolerations"],
      remaining age (tolerationMatches toleration taint) := by
  unfold podTolerates items
  cases pod["spec"]["tolerations"].asArray? with
  | none => simp [remaining]
  | some tolerations => simpa [remaining] using remaining_longest age none tolerations

theorem due_eq : due pod taints ageSecs =
    ⨅ taint ∈ taints.filter isNoExecute, timeLeft pod ageSecs taint := by
  unfold due timeLeft
  simp only [remaining_podTolerates]

/-- What is left of it at every age determines a toleration. -/
theorem eq_of_remaining {first second : Option (Option Int)}
    (same : ∀ age, remaining age first = remaining age second) : first = second := by
  match first, second with
  | none, none | some none, some none => rfl
  | none, some none | some none, none => simpa [remaining] using same 0
  | some none, some (some seconds) | some (some seconds), some none =>
    simpa [remaining] using same 0
  | none, some (some seconds) | some (some seconds), none =>
    simpa [remaining] using same (seconds - 1)
  | some (some seconds), some (some others) =>
    have left := ENat.natCast_inj.mp (same (seconds - 1))
    have right := ENat.natCast_inj.mp (same (others - 1))
    congr 2
    omega

theorem podTolerates_perm
    (same : items other["spec"]["tolerations"] ~ items pod["spec"]["tolerations"])
    (taint : Value) : podTolerates other taint = podTolerates pod taint := by
  refine eq_of_remaining fun age => ?_
  simp only [remaining_podTolerates, same.mem_iff]

theorem asI64?_lt {value : Value} {number : Int} (read : value.asI64? = some number) :
    number < 2 ^ 63 := by
  have ⟨_, fits⟩ := Option.filter_eq_some_iff.mp read
  exact of_decide_eq_true (Bool.and_eq_true_iff.mp fits).2

theorem longest_lt {seconds : Int} (best : Option (Option Int)) (tolerations : List Value)
    (known : ∀ seconds, best = some (some seconds) → seconds < 2 ^ 63)
    (found : longest taint best tolerations = some (some seconds)) : seconds < 2 ^ 63 := by
  induction tolerations generalizing best with
  | nil => exact known seconds found
  | cons head rest ih =>
    unfold longest at found
    cases matched : tolerationMatches head taint with
    | none =>
      rw [matched] at found
      exact ih best known found
    | some limit =>
      cases limit with
      | none =>
        rw [matched] at found
        cases found
      | some offered =>
        rw [matched] at found
        have small : offered < 2 ^ 63 := by
          unfold tolerationMatches at matched
          dsimp only at matched
          split_ifs at matched <;> exact asI64?_lt (Option.some.inj matched)
        refine ih _ (fun other isOther => ?_) found
        split at isOther
        · next before =>
          split_ifs at isOther
          · exact known other isOther
          · cases isOther
            exact small
        · cases isOther
          exact small

theorem podTolerates_lt {seconds : Int} (tolerated : podTolerates pod taint = some (some seconds)) :
    seconds < 2 ^ 63 := by
  have ⟨tolerations, _, found⟩ := Option.bind_eq_some_iff.mp tolerated
  exact longest_lt none tolerations nofun found

/-- A verdict that is given with some time left. -/
noncomputable def Verdict.of (left : ℕ∞) (key : String) : Verdict :=
  if left = ⊤ then .stay else if left = 0 then .evict key else .evictIn left.toNat key

theorem Verdict.delay_of (left : ℕ∞) (key : String) : (Verdict.of left key).delay = left := by
  unfold Verdict.of
  split_ifs with never now
  · exact never.symm
  · exact now.symm
  · exact ENat.natCast_toNat never

theorem Verdict.of_pos {seconds : Int} (positive : 0 < seconds) (key : String) :
    Verdict.of seconds.toNat key = .evictIn seconds key := by
  rw [Verdict.of, if_neg (ENat.natCast_ne_top _), if_neg (by simpa using positive),
    ENat.toNat_natCast, Int.toNat_of_nonneg positive.le]

/-- The verdict is by a taint that is counted as the soonest, if there is a taint. -/
def Tells (pod : Value) (ageSecs : Value → Int) (taints : List Value) (verdict : Verdict) : Prop :=
  (taints = [] ∧ verdict = .stay) ∨ ∃ taint, Soonest pod taints ageSecs taint ∧
    verdict = .of (timeCounted pod ageSecs taint) (taintKey taint)

theorem Tells.concat {verdict : Verdict} (tells : Tells pod ageSecs taints verdict)
    (taint : Value) : Tells pod ageSecs (taints ++ [taint])
      (if verdict.delay ≤ timeCounted pod ageSecs taint then verdict
        else .of (timeCounted pod ageSecs taint) (taintKey taint)) := by
  rcases tells with ⟨rfl, rfl⟩ | ⟨held, ⟨member, least⟩, rfl⟩
  · refine .inr ⟨taint, ⟨mem_singleton_self _, fun other found => ?_⟩, ?_⟩
    · rw [mem_singleton.mp found]
    · split_ifs with never
      · rw [top_le_iff.mp never]
        rfl
      · rfl
  · rw [Verdict.delay_of]
    split_ifs with sooner
    · exact .inr ⟨held, ⟨mem_append_left _ member, forall_mem_concat least sooner⟩, rfl⟩
    · refine .inr ⟨taint, ⟨mem_append_right _ (mem_singleton_self _),
        forall_mem_concat (fun other found => ?_) le_rfl⟩, rfl⟩
      exact (not_le.mp sooner).le.trans (least other found)

theorem tells_now (member : taint ∈ taints) (now : timeCounted pod ageSecs taint = 0) :
    Tells pod ageSecs taints (.evict (taintKey taint)) :=
  .inr ⟨taint, ⟨member, fun _ _ => now ▸ zero_le⟩, by rw [now]; rfl⟩

/-- The loop: the verdict so far becomes that of all taints. -/
theorem soonestOf_tells (before : List Value) (soonest : Option (Int × String))
    (tells : Tells pod ageSecs before (.ofSoonest soonest)) :
    Tells pod ageSecs (before ++ taints.filter isNoExecute)
    (soonestOf pod ageSecs soonest taints) := by
  induction taints generalizing before soonest with
  | nil =>
    rw [filter_nil, append_nil]
    exact tells
  | cons taint rest ih =>
    unfold soonestOf
    by_cases executes : isNoExecute taint = true
    · have grown := tells.concat taint
      have here : taint ∈ before ++ [taint] ++ rest.filter isNoExecute := by simp
      rw [if_pos executes, filter_cons_of_pos executes, append_cons]
      cases tolerated : podTolerates pod taint with
      | none => exact tells_now here (by rw [timeCounted, tolerated]; rfl)
      | some limit =>
        cases limit with
        | none =>
          have forever : timeCounted pod ageSecs taint = ⊤ := by rw [timeCounted, tolerated]; rfl
          rw [forever, if_pos le_top] at grown
          exact ih _ _ grown
        | some seconds =>
          have counts : timeCounted pod ageSecs taint =
              ((seconds - ageSecs taint).bmod (2 ^ 64)).toNat := by
            rw [timeCounted, tolerated]
            rfl
          dsimp only
          split_ifs with past
          · exact tells_now here (by rw [counts, Int.toNat_of_nonpos past]; rfl)
          · rw [counts, Verdict.of_pos (not_le.mp past)] at grown
            cases soonest with
            | none =>
              rw [if_neg (by simp [Verdict.ofSoonest, Verdict.delay])] at grown
              exact ih _ _ grown
            | some found =>
              obtain ⟨first, held⟩ := found
              dsimp only
              split_ifs with sooner
              · have less : (Verdict.ofSoonest (some (first, held))).delay ≤
                    ((seconds - ageSecs taint).bmod (2 ^ 64)).toNat := toNat_mono sooner
                rw [if_pos less] at grown
                exact ih _ _ grown
              · rw [if_neg] at grown
                · exact ih _ _ grown
                · simp only [Verdict.ofSoonest, Verdict.delay, ENat.natCast_le_natCast]
                  omega
    · rw [if_neg executes, filter_cons_of_neg executes]
      exact ih before soonest tells

theorem verdictFor_tells (pod : Value) (taints : List Value) (ageSecs : Value → Int) :
    Tells pod ageSecs (taints.filter isNoExecute) (verdictFor pod taints ageSecs) :=
  soonestOf_tells [] none (.inl ⟨rfl, rfl⟩)

theorem delay_verdictFor (pod : Value) (taints : List Value) (ageSecs : Value → Int) :
    (verdictFor pod taints ageSecs).delay =
      ⨅ taint ∈ taints.filter isNoExecute, timeCounted pod ageSecs taint := by
  rcases verdictFor_tells pod taints ageSecs with ⟨none, stays⟩ | ⟨taint, ⟨member, least⟩, told⟩
  · simp [none, stays, Verdict.delay]
  · rw [told, Verdict.delay_of]
    exact le_antisymm (le_iInf₂ least) (iInf₂_le taint member)

theorem soonestOf_keeps {seconds : Int} (positive : 0 < seconds) (key : String)
    (least : ∀ other ∈ taints.filter isNoExecute, (seconds.toNat : ℕ∞) ≤
      timeCounted pod ageSecs other) :
    soonestOf pod ageSecs (some (seconds, key)) taints = .evictIn seconds key := by
  induction taints with
  | nil => rfl
  | cons taint rest ih =>
    unfold soonestOf
    by_cases executes : isNoExecute taint = true
    · rw [filter_cons_of_pos executes] at least
      have ⟨first, later⟩ := forall_mem_cons.mp least
      rw [timeCounted] at first
      rw [if_pos executes]
      cases tolerated : podTolerates pod taint with
      | none =>
        rw [tolerated] at first
        exact absurd (ENat.natCast_le_natCast.mp first) (by omega)
      | some limit =>
        cases limit with
        | none => exact ih later
        | some others =>
          rw [tolerated] at first
          have le := ENat.natCast_le_natCast.mp first
          dsimp only
          rw [if_neg (by omega), if_pos (by omega)]
          exact ih later
    · rw [filter_cons_of_neg executes] at least
      rw [if_neg executes]
      exact ih least

/-- A taint that is counted as the soonest gives the verdict where it comes first. -/
theorem verdictFor_cons (executes : isNoExecute taint = true)
    (least : ∀ other ∈ taints.filter isNoExecute,
      timeCounted pod ageSecs taint ≤ timeCounted pod ageSecs other)
    (finite : timeCounted pod ageSecs taint ≠ ⊤) :
    verdictFor pod (taint :: taints) ageSecs =
      .of (timeCounted pod ageSecs taint) (taintKey taint) := by
  unfold verdictFor soonestOf
  rw [if_pos executes]
  unfold timeCounted at finite least ⊢
  cases tolerated : podTolerates pod taint with
  | none => rfl
  | some limit =>
    rw [tolerated] at finite least
    cases limit with
    | none => exact absurd rfl finite
    | some seconds =>
      dsimp only [counted] at least ⊢
      split_ifs with past
      · rw [Int.toNat_of_nonpos past]
        rfl
      · rw [soonestOf_keeps (not_le.mp past) _ least, Verdict.of_pos (not_le.mp past)]
        rfl

theorem timeCounted_eq (left : timeLeft pod ageSecs taint ≠ 0)
    (begun : podTolerates pod taint ≠ some none → 0 ≤ ageSecs taint) :
    timeCounted pod ageSecs taint = timeLeft pod ageSecs taint := by
  unfold timeCounted timeLeft at *
  cases tolerated : podTolerates pod taint with
  | none => rfl
  | some limit =>
    cases limit with
    | none => rfl
    | some seconds =>
      rw [tolerated] at left
      have age := begun (by rw [tolerated]; simp)
      have small := podTolerates_lt tolerated
      have some : (seconds - ageSecs taint).toNat ≠ 0 := fun none => left (congrArg _ none)
      change (((seconds - ageSecs taint).bmod (2 ^ 64)).toNat : ℕ∞) = _
      rw [Int.bmod_eq_of_le (by omega) (by omega)]
      rfl

theorem timeLeft_le (more : items pod["spec"]["tolerations"] ⊆ items other["spec"]["tolerations"])
    (age : Int) :
    remaining age (podTolerates pod taint) ≤ remaining age (podTolerates other taint) := by
  rw [remaining_podTolerates, remaining_podTolerates]
  exact iSup_mono fun one => iSup_mono' fun held => ⟨more held, le_rfl⟩

theorem forever_of_le (more : items pod["spec"]["tolerations"] ⊆ items other["spec"]["tolerations"])
    (forever : podTolerates pod taint = some none) : podTolerates other taint = some none := by
  have le := @timeLeft_le pod other taint more 0
  rw [forever] at le
  cases tolerated : podTolerates other taint with
  | none => exact absurd (top_le_iff.mp (tolerated ▸ le)) (by simp [remaining])
  | some limit =>
    cases limit with
    | none => rfl
    | some seconds => exact absurd (top_le_iff.mp (tolerated ▸ le)) (by simp [remaining])

def patient (tolerations : List Value) : Value :=
  .object [("spec", .object [("tolerations", .array tolerations)])]

/-- Every taint is tolerated for as long as can be said. -/
def longestTime : Value :=
  .object [("operator", .string "Exists"), ("tolerationSeconds", .number (2 ^ 63 - 1))]

/-- With it, a taint from the future evicts at once. -/
theorem timeCounted_longestTime (limited : podTolerates pod taint ≠ some none)
    (low : -2 ^ 63 ≤ ageSecs taint) (future : ageSecs taint < 0) :
    timeCounted (patient (longestTime :: items pod["spec"]["tolerations"])) ageSecs taint = 0 := by
  have tolerated : podTolerates (patient (longestTime :: items pod["spec"]["tolerations"])) taint =
      some (some (2 ^ 63 - 1)) := by
    refine eq_of_remaining fun age => ?_
    have matched : tolerationMatches longestTime taint = some (some (2 ^ 63 - 1)) := by
      simp [tolerationMatches, longestTime]
      rfl
    have held : items
      (patient (longestTime :: items pod["spec"]["tolerations"]))["spec"]["tolerations"] =
      longestTime :: items pod["spec"]["tolerations"] := rfl
    rw [remaining_podTolerates, held]
    simp only [mem_cons, iSup_or, iSup_sup_eq, iSup_iSup_eq_left]
    rw [← remaining_podTolerates, matched, sup_eq_left]
    cases offered : podTolerates pod taint with
    | none => exact zero_le
    | some limit =>
      cases limit with
      | none => exact absurd offered limited
      | some seconds =>
        have := podTolerates_lt offered
        exact toNat_mono (by omega)
  rw [timeCounted, tolerated]
  change (((2 ^ 63 - 1 - ageSecs taint).bmod (2 ^ 64)).toNat : ℕ∞) = 0
  have : (2 ^ 63 - 1 - ageSecs taint).bmod (2 ^ 64) ≤ 0 := by
    dsimp only [Int.bmod]
    split_ifs <;> omega
  rw [Int.toNat_of_nonpos this]
  rfl

theorem due_eq_zero_iff : due pod taints ageSecs = 0 ↔
    ∃ taint ∈ taints.filter isNoExecute, timeLeft pod ageSecs taint = 0 := by
  rw [due_eq]
  simp only [ENat.iInf_eq_zero, exists_prop]

theorem Relaxes.settled (clock : ∀ taint, -2 ^ 63 ≤ ageSecs taint)
    (relaxes : Relaxes pod taints ageSecs) : Settled pod taints ageSecs where
  oneKey first second isFirst isSecond finite := by
    have front {taint : Value} (soonest : Soonest pod (taints.filter isNoExecute) ageSecs taint)
        (finite : timeCounted pod ageSecs taint ≠ ⊤) : verdictFor pod taints ageSecs =
          .of (timeCounted pod ageSecs taint) (taintKey taint) := by
      have ⟨member, executes⟩ := mem_filter.mp soonest.1
      rw [← relaxes.order pod _ (.refl _) (perm_cons_erase member).symm]
      exact verdictFor_cons executes
        (fun other found => soonest.2 other ((erase_sublist.filter _).mem found)) finite
    have same := le_antisymm (isFirst.2 _ isSecond.1) (isSecond.2 _ isFirst.1)
    have told := (front isFirst finite).symm.trans (front isSecond (same ▸ finite))
    rw [← same] at told
    unfold Verdict.of at told
    rw [if_neg finite, if_neg finite] at told
    split_ifs at told
    · exact Verdict.evict.inj told
    · exact (Verdict.evictIn.inj told).2
  begun left taint member limited := by
    by_contra future
    have now : (verdictFor pod taints ageSecs).delay ≤ 0 := by
      refine (relaxes.longer (patient (longestTime :: items pod["spec"]["tolerations"])) longestTime
        (.refl _)).trans ?_
      rw [delay_verdictFor]
      exact (iInf₂_le taint member).trans_eq
        (timeCounted_longestTime limited (clock taint) (not_le.mp future))
    rw [relaxes.delay] at now
    have ⟨other, found, ended⟩ := due_eq_zero_iff.mp (nonpos_iff_eq_zero.mp now)
    exact left other found ended
  ended taint member ended := by
    have due := relaxes.delay.trans (due_eq_zero_iff.mpr ⟨taint, member, ended⟩)
    rw [delay_verdictFor] at due
    simpa only [ENat.iInf_eq_zero, exists_prop] using due

theorem Settled.relaxes (settled : Settled pod taints ageSecs) : Relaxes pod taints ageSecs := by
  refine ⟨fun other others same perm => ?_, ?_, fun other toleration more => ?_⟩
  · have counts : timeCounted other ageSecs = timeCounted pod ageSecs := by
      funext taint
      rw [timeCounted, podTolerates_perm same, timeCounted]
    have executing := perm.filter isNoExecute
    have told := verdictFor_tells other others ageSecs
    unfold Tells Soonest at told
    rw [counts] at told
    rcases told, verdictFor_tells pod taints ageSecs with
      ⟨⟨none, stays⟩ | ⟨first, isFirst, told⟩, ⟨none', stays'⟩ | ⟨second, isSecond, told'⟩⟩
    · rw [stays, stays']
    · rw [none] at executing
      rw [← executing.nil_eq] at isSecond
      cases isSecond.1
    · rw [none'] at executing
      rw [executing.eq_nil] at isFirst
      cases isFirst.1
    · have isFirst : Soonest pod (taints.filter isNoExecute) ageSecs first :=
        ⟨executing.mem_iff.mp isFirst.1, fun taint member =>
          isFirst.2 taint (executing.mem_iff.mpr member)⟩
      have equal := le_antisymm (isFirst.2 _ isSecond.1) (isSecond.2 _ isFirst.1)
      rw [told, told', ← equal]
      by_cases never : timeCounted pod ageSecs first = ⊤
      · rw [never]
        rfl
      · rw [settled.oneKey first second isFirst isSecond never]
  · rw [delay_verdictFor]
    by_cases ended : ∃ taint ∈ taints.filter isNoExecute, timeLeft pod ageSecs taint = 0
    · have ⟨taint, member, isOver⟩ := ended
      rw [due_eq_zero_iff.mpr ended]
      simpa only [ENat.iInf_eq_zero, exists_prop] using settled.ended taint member isOver
    · simp only [not_exists, not_and] at ended
      rw [due_eq]
      exact iInf_congr fun taint => iInf_congr fun member =>
        timeCounted_eq (ended taint member) (settled.begun ended taint member)
  · rw [delay_verdictFor, delay_verdictFor]
    have within : items pod["spec"]["tolerations"] ⊆ items other["spec"]["tolerations"] :=
      fun one held => more.mem_iff.mpr (.tail _ held)
    by_cases ended : ∃ taint ∈ taints.filter isNoExecute, timeLeft pod ageSecs taint = 0
    · have ⟨taint, member, isOver⟩ := ended
      have ⟨now, found, isNow⟩ := settled.ended taint member isOver
      exact (iInf₂_le now found).trans (isNow ▸ zero_le)
    · simp only [not_exists, not_and] at ended
      refine iInf₂_mono fun taint member => ?_
      have longer : timeLeft pod ageSecs taint ≤ timeLeft other ageSecs taint :=
        timeLeft_le within _
      have begun := settled.begun ended taint member
      rw [timeCounted_eq (ended taint member) begun, timeCounted_eq]
      · exact longer
      · exact fun none => ended taint member (nonpos_iff_eq_zero.mp (none ▸ longer))
      · exact fun limited => begun fun forever => limited (forever_of_le within forever)

end Rustkube.Taint
