import Mathlib.Data.List.Sort

/- What a stable sort does when items are added and taken away. -/
namespace StableSort

open List

variable {α : Type} {le : α → α → Prop} [DecidableRel le] {items : List α}

theorem orderedInsert_concat {item last : α} (items : List α) (before : le item last) :
    (items ++ [last]).orderedInsert le item = items.orderedInsert le item ++ [last] := by
  induction items with
  | nil => simp [before]
  | cons head rest ih =>
    by_cases first : le item head
    · simp [first]
    · simpa [first] using ih

theorem insertionSort_concat {last : α} (before : ∀ item ∈ items, le item last) :
    (items ++ [last]).insertionSort le = items.insertionSort le ++ [last] := by
  induction items with
  | nil => simp
  | cons head rest ih =>
    have sorted := ih fun item member => before item (.tail _ member)
    rw [cons_append, insertionSort_cons, sorted, insertionSort_cons]
    exact orderedInsert_concat _ (before head (.head _))

theorem orderedInsert_first {item : α} (after : ∀ other ∈ items, le item other) :
    items.orderedInsert le item = item :: items := by
  cases items with
  | nil => rfl
  | cons head rest => exact orderedInsert_cons_of_le _ _ (after head (.head _))

variable [IsTrans α le]

theorem filter_orderedInsert (keep : α → Bool) (item : α) (sorted : items.Pairwise le) :
    (items.orderedInsert le item).filter keep =
      if keep item then (items.filter keep).orderedInsert le item else items.filter keep := by
  induction items with
  | nil => by_cases kept : keep item = true <;> simp [kept]
  | cons head rest ih =>
    have ⟨headFirst, restSorted⟩ := pairwise_cons.mp sorted
    have tail := ih restSorted
    by_cases first : le item head
    · have after : ∀ other ∈ (head :: rest).filter keep, le item other := by
        intro other member
        rcases mem_cons.mp (mem_of_mem_filter member) with rfl | inside
        · exact first
        · exact IsTrans.trans _ _ _ first (headFirst other inside)
      rw [orderedInsert_cons_of_le _ _ first, filter_cons, orderedInsert_first after]
    · rw [orderedInsert_of_not_le _ _ first, filter_cons, tail]
      by_cases kept : keep head = true
      · by_cases also : keep item = true <;> simp [kept, also, first]
      · simp [kept]

theorem filter_insertionSort [Std.Total le] (keep : α → Bool) (items : List α) :
    (items.insertionSort le).filter keep = (items.filter keep).insertionSort le := by
  induction items with
  | nil => rfl
  | cons head rest ih =>
    rw [insertionSort_cons, filter_orderedInsert keep head (pairwise_insertionSort le rest), ih,
      filter_cons]
    split_ifs
    · rfl
    · rfl

end StableSort
