import Mathlib

/- The offsets that the allocation of a Service's address tries (service_ip.rs). -/
namespace Rustkube.Service

open List

/-- The bottom of the range, which is left for fixed addresses until the rest is full. -/
def staticBand (count : Nat) : Nat := min (max 16 (min 256 (count / 16))) count

/-- All offsets of a band from a random point on. The sum is one of `u64`. -/
def spin (start low high : Nat) : List Nat :=
  (range (high - low)).map fun i => low + (start % (high - low) + i) % 2 ^ 64 % (high - low)

def candidates (count start : Nat) : List Nat :=
  (spin start (staticBand count) count ++ spin start 0 (staticBand count)).filter
    fun offset => 1 ≤ offset ∧ offset + 1 < count

variable {start low high count : Nat}

theorem spin_perm (fits : high - low ≤ 2 ^ 63) :
    spin start low high ~ range' low (high - low) := by
  have turned : spin start low high =
      ((range (high - low)).rotate (start % (high - low))).map (low + ·) := by
    apply ext_getElem
    · simp [spin]
    · intro i inside _
      simp only [spin, length_map, length_range] at inside
      have bounded := Nat.mod_lt start (by omega : high - low > 0)
      simp only [spin, getElem_map, getElem_range, getElem_rotate, length_range]
      rw [Nat.mod_eq_of_lt (by omega : _ < 2 ^ 64), Nat.add_comm i]
  rw [turned, range'_eq_map_range]
  exact (rotate_perm _ _).map _

theorem mem_spin (fits : high - low ≤ 2 ^ 63) {offset : Nat} :
    offset ∈ spin start low high ↔ low ≤ offset ∧ offset < high := by
  rw [(spin_perm fits).mem_iff, mem_range'_1]
  omega

theorem candidates_cover (start : Nat) (fits : count - staticBand count ≤ 2 ^ 63) :
    (candidates count start).Nodup ∧
      (∀ offset, offset ∈ candidates count start ↔ 1 ≤ offset ∧ offset + 2 ≤ count) ∧
      (candidates count start).Pairwise fun earlier later =>
        staticBand count ≤ later → staticBand count ≤ earlier := by
  obtain ⟨whole, small⟩ : staticBand count ≤ count ∧ staticBand count - 0 ≤ 2 ^ 63 := by
    unfold staticBand
    omega
  refine ⟨Nodup.filter _ ?_, fun offset => ?_, Pairwise.filter _ ?_⟩
  · apply Nodup.append ((spin_perm fits).nodup_iff.mpr nodup_range')
      ((spin_perm small).nodup_iff.mpr nodup_range')
    intro offset above below
    have := (mem_spin fits).mp above
    have := (mem_spin small).mp below
    omega
  · rw [candidates, mem_filter, mem_append, mem_spin fits, mem_spin small, decide_eq_true_iff]
    omega
  · rw [pairwise_append]
    refine ⟨pairwise_of_forall_mem_list fun _ above _ _ _ => ((mem_spin fits).mp above).1,
      pairwise_of_forall_mem_list fun _ _ _ below upper => ?_,
      fun _ above _ _ _ => ((mem_spin fits).mp above).1⟩
    have := (mem_spin small).mp below
    omega

theorem candidates_cover_subnet : (candidates (2 ^ 16) 77).Nodup :=
  (candidates_cover 77 (by decide)).1

end Rustkube.Service
