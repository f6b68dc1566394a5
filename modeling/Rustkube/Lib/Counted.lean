import Mathlib.Data.List.Basic

/-- A result, and the steps that were taken for it. -/
structure Counted (α : Type) where
  value : α
  steps : Nat

namespace Counted

open List

variable {α β : Type}

instance : Monad Counted where
  pure value := ⟨value, 0⟩
  bind first next := ⟨(next first.value).value, first.steps + (next first.value).steps⟩

def tick : Counted Unit := ⟨(), 1⟩

/-- A result for which no more than `steps` are taken. -/
def within (steps : Nat) (value : α) : Counted α := ⟨value, steps⟩

/-- A loop over a list, with a step for each of its rounds. -/
def loop {σ : Type} (body : σ → α → Counted σ) : List α → σ → Counted σ
  | [], state => pure state
  | item :: rest, state => do
    tick
    loop body rest (← body state item)

@[simp] theorem value_pure (value : α) : (pure value : Counted α).value = value := rfl

@[simp] theorem value_bind (first : Counted α) (next : α → Counted β) :
    (first >>= next).value = (next first.value).value := rfl

@[simp] theorem value_within (steps : Nat) (value : α) : (within steps value).value = value := rfl

@[simp] theorem value_loop {σ : Type} (body : σ → α → Counted σ) (items : List α) (state : σ) :
    (loop body items state).value = items.foldl (fun state item => (body state item).value)
      state := by
  induction items generalizing state with
  | nil => rfl
  | cons item rest ih => exact ih _

variable {ε : Type} {body : α → ExceptT ε Counted PUnit} {items : List α} {bound : Nat}

@[simp] theorem value_lift (first : Counted α) :
    (ExceptT.run (liftM first : ExceptT ε Counted α)).value = .ok first.value := rfl

theorem run_bind (first : ExceptT ε Counted α) (next : α → ExceptT ε Counted β) :
    (first >>= next).run =
      match first.run.value with
      | .ok value => ⟨(next value).run.value, first.run.steps + (next value).run.steps⟩
      | .error failure => ⟨.error failure, first.run.steps⟩ := by
  have ⟨value, steps⟩ := first
  cases value <;> rfl

theorem value_forM :
    (forM items body).run.value = .ok ⟨⟩ ↔ ∀ item ∈ items, (body item).run.value = .ok ⟨⟩ := by
  induction items with
  | nil => simp [forM_nil]
  | cons head rest ih =>
    rw [forM_cons, run_bind]
    cases first : (body head).run.value with
    | error failure => simp [first]
    | ok _ => simp [first, ih]

end Counted
