import Mathlib.Data.UInt
import Mathlib.Algebra.Order.BigOperators.Group.List
import Mathlib.Algebra.Order.Group.Nat
import Mathlib.Data.List.AList

/- What is charged under keys, and its sums. -/
namespace Ledger

open List

section

variable {K V : Type} [DecidableEq K] {M : Type} [AddCommGroup M] (amount : K → V → M)

def total (map : AList fun _ : K => V) : M :=
  (map.entries.map fun entry => amount entry.1 entry.2).sum

/-- What one key has in it. -/
def share (map : AList fun _ : K => V) (key : K) : M :=
  ((map.lookup key).map (amount key)).getD 0

theorem total_entries_erase (key : K) (entries : List (Sigma fun _ : K => V)) :
    ((entries.kerase key).map fun entry => amount entry.1 entry.2).sum =
      (entries.map fun entry => amount entry.1 entry.2).sum -
        ((entries.dlookup key).map (amount key)).getD 0 := by
  induction entries with
  | nil => simp
  | cons head rest ih =>
    have ⟨other, value⟩ := head
    by_cases same : key = other
    · subst same
      simp
    · have elsewhere : dlookup key (⟨other, value⟩ :: rest) = rest.dlookup key :=
        dlookup_cons_ne rest _ same
      rw [kerase_cons_ne same, map_cons, sum_cons, ih, map_cons, sum_cons, elsewhere]
      exact (add_sub_assoc _ _ _).symm

theorem total_erase (map : AList fun _ : K => V) (key : K) :
    total amount (map.erase key) = total amount map - share amount map key :=
  total_entries_erase amount key map.entries

theorem total_insert (map : AList fun _ : K => V) (key : K) (value : V) :
    total amount (map.insert key value) =
      total amount map - share amount map key + amount key value := by
  rw [← total_erase, add_comm]
  rfl

end

variable {K C : Type} [DecidableEq K] (owner : C → K) (amount : C → Nat) (demand : K → Nat)

theorem sum_filter_add_sum_filter_not (keep : C → Bool) (charges : List C) :
    ((charges.filter keep).map amount).sum + ((charges.filter (!keep ·)).map amount).sum =
      (charges.map amount).sum := by
  induction charges with
  | nil => rfl
  | cons head rest ih =>
    cases kept : keep head <;> simp [kept] <;> omega

theorem sum_demand_le {keys : List K} (distinct : keys.Nodup) {charges : List C}
    (owned : ∀ key ∈ keys, ∃ charge ∈ charges, owner charge = key ∧ demand key ≤ amount charge) :
    (keys.map demand).sum ≤ (charges.map amount).sum := by
  induction keys generalizing charges with
  | nil => simp
  | cons key rest ih =>
    have ⟨fresh, distinct⟩ := nodup_cons.mp distinct
    -- the charges of the first key and those of the others are apart
    have mine : demand key ≤
        ((charges.filter fun charge => owner charge == key).map amount).sum := by
      obtain ⟨charge, member, isMine, enough⟩ := owned key mem_cons_self
      have member : charge ∈ charges.filter fun charge => owner charge == key := by
        simp [member, isMine]
      exact enough.trans (le_sum_of_mem (mem_map_of_mem member))
    have others :=
        @ih distinct (charges.filter fun charge => !(owner charge == key)) fun other isOther => by
      have ⟨charge, member, isTheirs, enough⟩ := owned other (.tail _ isOther)
      have apart : other ≠ key := fun same => fresh (same ▸ isOther)
      exact ⟨charge, by simp [member, isTheirs, apart], isTheirs, enough⟩
    have split := sum_filter_add_sum_filter_not amount (fun charge => owner charge == key) charges
    rw [map_cons, sum_cons]
    omega

scoped instance instLinearOrderUInt64 : LinearOrder UInt64 where
  le_refl := UInt64.le_refl
  le_trans _ _ _ := UInt64.le_trans
  le_antisymm _ _ := UInt64.le_antisymm
  le_total := UInt64.le_total
  lt_iff_le_not_ge _ _ := Std.lt_iff_le_and_not_ge
  toDecidableLE := inferInstance
  toDecidableLT := inferInstance

theorem toNat_sum (words : List UInt64) (fits : (words.map UInt64.toNat).sum < 2 ^ 64) :
    words.sum.toNat = (words.map UInt64.toNat).sum := by
  induction words with
  | nil => rfl
  | cons head rest ih =>
    rw [map_cons, sum_cons] at fits ⊢
    have step := ih (by omega)
    rw [sum_cons, UInt64.toNat_add, step]
    exact Nat.mod_eq_of_lt fits

end Ledger
