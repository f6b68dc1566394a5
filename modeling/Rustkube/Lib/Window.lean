import Mathlib.Data.List.Basic

/- The newest entries of a growing log, as a bounded buffer keeps them. -/
namespace Window

open List

variable {α : Type} {capacity : Nat}

/-- Push at the back. A full buffer drops its front first. -/
def push (capacity : Nat) (buffer : List α) (entry : α) : List α :=
  (if buffer.length = capacity then buffer.tail else buffer) ++ [entry]

def newest (capacity : Nat) (log : List α) : List α := log.drop (log.length - capacity)

theorem newest_push (positive : 0 < capacity) (log : List α) (entry : α) :
    push capacity (newest capacity log) entry = newest capacity (log ++ [entry]) := by
  unfold push newest
  rw [length_drop, length_append, length_singleton]
  by_cases full : log.length - (log.length - capacity) = capacity
  · have next : log.length + 1 - capacity = log.length - capacity + 1 := by omega
    rw [if_pos full, tail_drop, next, drop_append_of_le_length (by omega)]
  · have short : log.length + 1 - capacity = 0 := by omega
    have same : log.length - capacity = 0 := by omega
    rw [if_neg full, short, same, drop_zero, drop_zero]

theorem filter_newest (positive : 0 < capacity) {log : List α} {wanted : α → Bool}
    (upward : log.Pairwise fun earlier later => wanted earlier = true → wanted later = true)
    (covered : ∀ front rest, newest capacity log = front :: rest → wanted front = true →
      log.length ≤ capacity) : (newest capacity log).filter wanted = log.filter wanted := by
  have whole := take_append_drop (log.length - capacity) log
  cases found : newest capacity log with
  | nil =>
    have empty : log.length ≤ log.length - capacity := drop_eq_nil_iff.mp found
    have none : log = [] := length_eq_zero_iff.mp (by omega)
    rw [none]
  | cons front rest =>
    rw [newest] at found
    by_cases kept : wanted front = true
    · have fits := covered front rest found kept
      rw [show log.length - capacity = 0 by omega, drop_zero] at found
      rw [found]
    · rw [← whole, found, pairwise_append] at upward
      rw [← whole, found, filter_append]
      have dropped : (log.take (log.length - capacity)).filter wanted = [] := by
        rw [filter_eq_nil_iff]
        intro entry member isWanted
        exact kept (upward.2.2 entry member front (.head _) isWanted)
      rw [dropped, nil_append]

end Window
