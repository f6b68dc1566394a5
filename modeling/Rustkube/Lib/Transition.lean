import Mathlib.Data.List.Basic
import Mathlib.Logic.Function.Iterate

/-- What holds of the entries of a record that grows at its end. -/
theorem List.forall_mem_concat {α : Type} {p : α → Prop} {record : List α} {entry : α}
    (all : ∀ x ∈ record, p x) (last : p entry) : ∀ x ∈ record ++ [entry], p x :=
  List.forall_mem_append.mpr ⟨all, List.forall_mem_singleton.mpr last⟩

theorem List.forall_mem_set {α : Type} {p : α → Prop} {record : List α} {index : Nat} {entry : α}
    (all : ∀ x ∈ record, p x) (new : p entry) : ∀ x ∈ record.set index entry, p x := fun x member =>
  (List.mem_or_eq_of_mem_set member).elim (all x) fun same => same ▸ new

theorem List.lookup_cons_of_ne {α β : Type} [BEq α] [LawfulBEq α] {key : α} {entry : α × β}
    {entries : List (α × β)} (different : key ≠ entry.1) :
    (entry :: entries).lookup key = entries.lookup key := by
  rw [List.lookup_cons, beq_eq_false_iff_ne.mpr different]

variable {α : Type} {record : List α} {index number : Nat} {entry found : α}

theorem List.getElem?_set_cases (isFound : (record.set index entry)[number]? = some found) :
    (index = number ∧ entry = found) ∨ (index ≠ number ∧ record[number]? = some found) := by
  rw [List.getElem?_set] at isFound
  split_ifs at isFound with same
  · exact .inl ⟨same, Option.some.inj isFound⟩
  · exact .inr ⟨same, isFound⟩

theorem List.getElem?_concat_cases (isFound : (record ++ [entry])[number]? = some found) :
    record[number]? = some found ∨ (number = record.length ∧ entry = found) := by
  rw [List.getElem?_append] at isFound
  split_ifs at isFound with inside
  · exact .inl isFound
  · rw [List.getElem?_singleton] at isFound
    split_ifs at isFound with last
    exact .inr ⟨by omega, Option.some.inj isFound⟩

/- Deterministic steps under an environment that picks the next action. -/
namespace Transition

variable {State Action : Type}

/-- The state after a list of actions, if every one of them is allowed and can be taken. -/
def run (step : State → Action → Option State) (allowed : State → Action → Prop)
    [∀ state action, Decidable (allowed state action)] : State → List Action → Option State
  | state, [] => some state
  | state, action :: rest =>
    if allowed state action then
      match step state action with
      | some next => run step allowed next rest
      | none => none
    else none

/-- The states that steps lead to, when each of them is allowed where it is taken. -/
inductive Reaches (step : State → Action → Option State) (allowed : State → Action → Prop)
    (start : State) : State → Prop
  | start : Reaches step allowed start start
  | next {before after : State} {action : Action} (reached : Reaches step allowed start before)
      (permitted : allowed before action) (taken : step before action = some after) :
      Reaches step allowed start after

variable {allowed : State → Action → Prop} {start state : State}
  {step : State → Action → Option State}

theorem Reaches.invariant {inv : State → Prop}
    (reached : Reaches step allowed start state) (initial : inv start)
    (kept : ∀ before action after, inv before → allowed before action →
      step before action = some after → inv after) : inv state := by
  induction reached with
  | start => exact initial
  | next _ permitted taken ih => exact kept _ _ _ ih permitted taken

theorem Reaches.mono {wider : State → Action → Prop} (reached : Reaches step allowed start state)
    (allows : ∀ state action, allowed state action → wider state action) :
    Reaches step wider start state := by
  induction reached with
  | start => exact .start
  | next _ permitted taken ih => exact ih.next (allows _ _ permitted) taken

theorem Reaches.run [∀ state action, Decidable (allowed state action)] {before : State}
    (reached : Reaches step allowed start before) (actions : List Action)
    (ran : run step allowed before actions = some state) : Reaches step allowed start state := by
  induction actions generalizing before with
  | nil =>
    obtain rfl : before = state := by simpa [Transition.run] using ran
    exact reached
  | cons action rest ih =>
    simp only [Transition.run] at ran
    split_ifs at ran with permitted
    cases taken : step before action with
    | none => simp [taken] at ran
    | some next =>
      rw [taken] at ran
      exact ih (reached.next permitted taken) ran

/-- A run whose last state passes a test shows a state with what follows from the test. -/
theorem exists_reaches_of [∀ state action, Decidable (allowed state action)] {goal : State → Prop}
    (actions : List Action) (test : State → Bool)
    (passed : (run step allowed start actions).any test = true)
    (follows : ∀ state, Reaches step allowed start state → test state = true → goal state) :
    ∃ state, Reaches step allowed start state ∧ goal state := by
  obtain ⟨state, ran, holds⟩ := (Option.any_eq_true _ _).mp passed
  have reached := Reaches.start.run actions ran
  exact ⟨state, reached, follows state reached holds⟩

theorem exists_of_run [∀ state action, Decidable (allowed state action)] {goal : State → Prop}
    {state : State} (actions : List Action) (ran : run step allowed start actions = some state)
    (follows : Reaches step allowed start state → goal state) :
    ∃ state, Reaches step allowed start state ∧ goal state :=
  ⟨state, .run .start actions ran, follows (.run .start actions ran)⟩

theorem exists_reaches [∀ state action, Decidable (allowed state action)] (actions : List Action)
    {test : State → Bool} (passed : (run step allowed start actions).any test = true) :
    ∃ state, Reaches step allowed start state ∧ test state = true :=
  exists_reaches_of actions test passed fun _ _ holds => holds

variable {round : State → State} {goal : State → Prop}

/-- From some round on the goal holds for good. -/
def Settles (round : State → State) (goal : State → Prop) (start : State) : Prop :=
  ∃ first, ∀ rounds, first ≤ rounds → goal (round^[rounds] start)

theorem settles_round : Settles round goal (round start) ↔ Settles round goal start := by
  constructor
  · rintro ⟨first, later⟩
    refine ⟨first + 1, fun rounds enough => ?_⟩
    obtain ⟨before, rfl⟩ : ∃ before, rounds = before + 1 := ⟨rounds - 1, by omega⟩
    exact later before (by omega)
  · rintro ⟨first, later⟩
    exact ⟨first, fun rounds enough => later (rounds + 1) (by omega)⟩

theorem settles_fixed (fixed : round start = start) : Settles round goal start ↔ goal start := by
  have still : ∀ rounds, round^[rounds] start = start := fun rounds =>
    Function.iterate_fixed fixed rounds
  constructor
  · rintro ⟨first, later⟩
    exact still first ▸ later first (Nat.le_refl first)
  · intro holds
    exact ⟨0, fun rounds _ => (still rounds).symm ▸ holds⟩

theorem settles_iff {inv condition : State → Prop} (distance : State → Nat)
    (advance : ∀ state, inv state →
      (round state = state ∧ (condition state ↔ goal state)) ∨
      (inv (round state) ∧ distance (round state) < distance state ∧
        (condition (round state) ↔ condition state)))
    (initial : inv start) : Settles round goal start ↔ condition start := by
  induction far : distance start using Nat.strongRecOn generalizing start with
  | ind far ih =>
    rcases advance start initial with ⟨fixed, same⟩ | ⟨kept, nearer, same⟩
    · rw [settles_fixed fixed, same]
    · rw [← settles_round, ih _ (by omega) kept rfl, same]

end Transition
