import Mathlib.Data.List.Basic

/- Keys in lexicographic order, and the half-open range of keys that share a prefix. -/
namespace PrefixRange

open List

variable {α : Type} [LT α]

/-- `next` comes right after `last`: everything before it is at most `last`. -/
def Follows (last next : α) : Prop := ∀ letter : α, letter < next ↔ ¬ last < letter

theorem mem_range_iff [trichotomous : Std.Trichotomous (· < · : α → α → Prop)]
    [irreflexive : Std.Irrefl (· < · : α → α → Prop)] {last next : α} (follows : Follows last next)
    (init key : List α) :
    (¬ key < init ++ [last] ∧ key < init ++ [next]) ↔ init ++ [last] <+: key := by
  induction init generalizing key with
  | nil =>
    cases key with
    | nil => simp
    | cons letter rest =>
      have below (bound : α) : letter :: rest < [bound] ↔ letter < bound := by
        simp [cons_lt_cons_iff]
      have equal : (¬ letter < last ∧ ¬ last < letter) ↔ last = letter := by
        constructor
        · exact fun ⟨notLess, notMore⟩ => trichotomous.trichotomous _ _ notMore notLess
        · rintro rfl
          exact ⟨irreflexive.irrefl _, irreflexive.irrefl _⟩
      rw [nil_append, nil_append, below, below, follows letter, equal]
      simp
  | cons first init ih =>
    cases key with
    | nil => simp
    | cons letter rest =>
      simp only [cons_append, cons_lt_cons_iff, cons_prefix_cons, ← ih rest]
      constructor
      · rintro ⟨notBelow, before | ⟨rfl, inside⟩⟩
        · exact absurd (.inl before) notBelow
        · exact ⟨rfl, fun less => notBelow (.inr ⟨rfl, less⟩), inside⟩
      · rintro ⟨rfl, notLess, inside⟩
        refine ⟨?_, .inr ⟨rfl, inside⟩⟩
        rintro (less | ⟨-, less⟩)
        · exact irreflexive.irrefl _ less
        · exact notLess less

/-- The keys before `token` and the least letter are those up to `token`. -/
theorem lt_concat_iff [trichotomous : Std.Trichotomous (· < · : α → α → Prop)]
    [asymmetric : Std.Asymm (· < · : α → α → Prop)] {least : α}
    (isLeast : ∀ letter, ¬ letter < least)
    (token key : List α) : key < token ++ [least] ↔ ¬ token < key := by
  induction token generalizing key with
  | nil => cases key <;> simp [cons_lt_cons_iff, isLeast]
  | cons first token ih =>
    cases key with
    | nil => simp
    | cons letter rest =>
      simp only [cons_append, cons_lt_cons_iff, ih]
      by_cases same : letter = first
      · have irrefl : ¬ first < first := fun less => asymmetric.asymm _ _ less less
        simp [same, irrefl]
      · have other : letter < first ↔ ¬ first < letter :=
          ⟨asymmetric.asymm _ _, fun notMore => by_contra fun notLess =>
            same (trichotomous.trichotomous _ _ notLess notMore)⟩
        simp [same, Ne.symm same, other]

theorem not_lt_of_prefix [irreflexive : Std.Irrefl (· < · : α → α → Prop)] {start key : List α}
    (shared : start <+: key) : ¬ key < start := by
  obtain ⟨rest, rfl⟩ := shared
  induction start with
  | nil => simp
  | cons letter start ih =>
    rw [cons_append, cons_lt_cons_iff]
    rintro (less | ⟨-, less⟩)
    · exact irreflexive.irrefl _ less
    · exact ih less

end PrefixRange
