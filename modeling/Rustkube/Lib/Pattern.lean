import Mathlib.Algebra.Order.BigOperators.Group.List
import Mathlib.Algebra.Order.Ring.Nat
import Rustkube.Lib.Text

namespace Pattern

open List Text

/-- Patterns `P` over texts `T`. `covers` compares two patterns without looking at texts. `sound`
says a covering pattern accepts whatever the covered one does. `probe` says no finite set of
patterns accepts everything a pattern does unless one of them covers it: some text of the pattern
tells it apart from all those that do not. -/
structure Language (P T : Type) where
  accepts : P → T → Bool
  covers : P → P → Bool
  sound : ∀ wide narrow text, covers wide narrow = true → accepts narrow text = true →
    accepts wide text = true
  probe : ∀ (narrow : P) (wides : List P), ∃ text, accepts narrow text = true ∧
    ∀ wide ∈ wides, accepts wide text = true → covers wide narrow = true

namespace Language

variable {P Q T U : Type}

/-- Pairs of patterns, each component accepting its own text. -/
def prod (left : Language P T) (right : Language Q U) : Language (P × Q) (T × U) where
  accepts pattern text := left.accepts pattern.1 text.1 && right.accepts pattern.2 text.2
  covers wide narrow := left.covers wide.1 narrow.1 && right.covers wide.2 narrow.2
  sound wide narrow text covering accepted := by
    rw [Bool.and_eq_true] at covering accepted ⊢
    exact ⟨left.sound _ _ _ covering.1 accepted.1, right.sound _ _ _ covering.2 accepted.2⟩
  probe narrow wides := by
    obtain ⟨first, inFirst, firstCovers⟩ := left.probe narrow.1 (wides.map Prod.fst)
    obtain ⟨second, inSecond, secondCovers⟩ := right.probe narrow.2 (wides.map Prod.snd)
    refine ⟨(first, second), by simp [inFirst, inSecond], ?_⟩
    intro wide member accepted
    rw [Bool.and_eq_true] at accepted ⊢
    exact ⟨firstCovers _ (List.mem_map_of_mem member) accepted.1,
      secondCovers _ (List.mem_map_of_mem member) accepted.2⟩

@[simp] theorem prod_accepts (left : Language P T) (right : Language Q U) (pattern : P × Q)
    (text : T × U) : (left.prod right).accepts pattern text =
      (left.accepts pattern.1 text.1 && right.accepts pattern.2 text.2) := rfl

@[simp] theorem prod_covers (left : Language P T) (right : Language Q U) (wide narrow : P × Q) :
    (left.prod right).covers wide narrow =
      (left.covers wide.1 narrow.1 && right.covers wide.2 narrow.2) := rfl

theorem contained_iff (language : Language P T) (narrows wides : List P) :
    (∀ text, (∃ narrow ∈ narrows, language.accepts narrow text = true) →
      ∃ wide ∈ wides, language.accepts wide text = true) ↔
    ∀ narrow ∈ narrows, ∃ wide ∈ wides, language.covers wide narrow = true := by
  constructor
  · intro contained narrow member
    have ⟨text, accepted, telling⟩ := language.probe narrow wides
    have ⟨wide, inWides, covering⟩ := contained text ⟨narrow, member, accepted⟩
    exact ⟨wide, inWides, telling wide inWides covering⟩
  · rintro covered text ⟨narrow, member, accepted⟩
    have ⟨wide, inWides, covering⟩ := covered narrow member
    exact ⟨wide, inWides, language.sound wide narrow text covering accepted⟩

/-- The same of two lists of rules, each of which is the union of its patterns. -/
theorem rules_contained_iff {Rule : Type} (language : Language P T) (patterns : Rule → List P)
    (rules owner : List Rule) :
    (∀ text, (∃ rule ∈ rules, ∃ narrow ∈ patterns rule, language.accepts narrow text = true) →
      ∃ rule ∈ owner, ∃ wide ∈ patterns rule, language.accepts wide text = true) ↔
    ∀ narrow ∈ rules.flatMap patterns, ∃ wide ∈ owner.flatMap patterns,
      language.covers wide narrow = true := by
  rw [← language.contained_iff]
  have flat (list : List Rule) (text : T) :
      (∃ rule ∈ list, ∃ pattern ∈ patterns rule, language.accepts pattern text = true) ↔
        ∃ pattern ∈ list.flatMap patterns, language.accepts pattern text = true := by
    constructor
    · rintro ⟨rule, member, pattern, inside, accepted⟩
      exact ⟨pattern, mem_flatMap.mpr ⟨rule, member, inside⟩, accepted⟩
    · rintro ⟨pattern, inside, accepted⟩
      have ⟨rule, member, inRule⟩ := mem_flatMap.mp inside
      exact ⟨rule, member, pattern, inRule, accepted⟩
  simp only [flat]

end Language

/-- A text longer than every one of `texts`, made of one letter. -/
def fresh (texts : List String) : String :=
  String.ofList (List.replicate ((texts.map fun text => text.toList.length).sum + 1) 'x')

theorem length_lt_fresh {texts : List String} {text : String} (member : text ∈ texts) :
    text.toList.length < (fresh texts).toList.length := by
  have bound : text.toList.length ≤ (texts.map fun text => text.toList.length).sum :=
    le_sum_of_mem (mem_map_of_mem member)
  simp only [fresh, String.toList_ofList, length_replicate]
  omega

theorem fresh_not_mem (texts : List String) : fresh texts ∉ texts := by
  intro member
  exact Nat.lt_irrefl _ (length_lt_fresh member)

theorem slash_not_mem_fresh (texts : List String) : '/' ∉ (fresh texts).toList := by
  simp [fresh, String.toList_ofList, mem_replicate]

def wordAccepts (pattern text : String) : Bool := pattern == "*" || pattern == text

/-- `*` accepts every text, any other pattern itself. -/
def word : Language String String where
  accepts := wordAccepts
  covers := wordAccepts
  sound wide narrow text covering accepted := by
    simp only [wordAccepts, Bool.or_eq_true, beq_iff_eq] at covering accepted ⊢
    rcases covering with everything | rfl
    · exact Or.inl everything
    · exact accepted
  probe narrow wides := by
    by_cases everything : narrow = "*"
    · refine ⟨fresh wides, by simp [wordAccepts, everything], ?_⟩
      intro wide member accepted
      simp only [wordAccepts, Bool.or_eq_true, beq_iff_eq] at accepted ⊢
      rcases accepted with all | rfl
      · exact Or.inl all
      · exact absurd member (fresh_not_mem wides)
    · exact ⟨narrow, by simp [wordAccepts], fun wide _ accepted => accepted⟩

/-- `stem/*`, the patterns that stand for everything below `stem`. -/
def below (pattern text : String) : Bool :=
  Text.endsWith pattern "/*" && Text.startsWith text (Text.dropLast pattern)

def globAccepts (pattern text : String) : Bool :=
  pattern == "*" || pattern == text || below pattern text

theorem endsWith_slash_star {pattern : String} (ends : endsWith pattern "/*" = true) :
    ∃ stem, pattern.toList = stem ++ ['/', '*'] ∧ (dropLast pattern).toList = stem ++ ['/'] := by
  have ⟨stem, equal⟩ := (endsWith_iff pattern "/*").mp ends
  have split : pattern.toList = (stem ++ ['/']) ++ ['*'] := by
    rw [← equal, append_assoc]
    rfl
  refine ⟨stem, by rw [← equal]; rfl, ?_⟩
  rw [toList_dropLast, split, dropLast_concat]

theorem below_iff (pattern text : String) : below pattern text = true ↔
    ∃ stem rest, pattern.toList = stem ++ ['/', '*'] ∧ text.toList = stem ++ '/' :: rest := by
  rw [below, Bool.and_eq_true, startsWith_iff]
  constructor
  · rintro ⟨ends, rest, equal⟩
    have ⟨stem, whole, dropped⟩ := endsWith_slash_star ends
    exact ⟨stem, rest, whole, by rw [← equal, dropped, append_assoc]; rfl⟩
  · rintro ⟨stem, rest, whole, equal⟩
    have ends : endsWith pattern "/*" = true := (endsWith_iff pattern "/*").mpr ⟨stem, whole.symm⟩
    have ⟨stem', whole', dropped⟩ := endsWith_slash_star ends
    obtain rfl : stem' = stem := append_cancel_right (whole'.symm.trans whole)
    exact ⟨ends, rest, by rw [dropped, equal, append_assoc]; rfl⟩

theorem below_trans {wide narrow text : String} (outer : below wide narrow = true)
    (inner : below narrow text = true) : below wide text = true := by
  have ⟨stem, rest, wideEq, narrowEq⟩ := (below_iff wide narrow).mp outer
  have ⟨stem', rest', narrowEq', textEq⟩ := (below_iff narrow text).mp inner
  -- The last character of `narrow` is `*`, so `stem/` ends at or before the `/` of `stem'/*`.
  have shared : stem ++ ['/'] <+: stem' ++ ['/'] := by
    have both : stem ++ ['/'] <+: (stem' ++ ['/']) ++ ['*'] :=
      ⟨rest, by simpa [narrowEq] using narrowEq'⟩
    rcases prefix_concat_iff.mp both with equal | earlier
    · have last := congrArg getLast? equal
      simp at last
    · exact earlier
  have ⟨middle, join⟩ := shared
  refine (below_iff wide text).mpr ⟨stem, middle ++ rest', wideEq, ?_⟩
  calc text.toList = (stem' ++ ['/']) ++ rest' := by rw [textEq, append_assoc]; rfl
    _ = stem ++ '/' :: (middle ++ rest') := by rw [← join]; simp

theorem not_below_of_no_slash {pattern text : String} (flat : '/' ∉ text.toList) :
    below pattern text = false := by
  rw [Bool.eq_false_iff]
  intro inside
  obtain ⟨stem, rest, -, equal⟩ := (below_iff pattern text).mp inside
  exact flat (by simp [equal])

theorem globAccepts_trans {wide narrow text : String} (covering : globAccepts wide narrow = true)
    (accepted : globAccepts narrow text = true) : globAccepts wide text = true := by
  simp only [globAccepts, Bool.or_eq_true, beq_iff_eq] at covering accepted ⊢
  rcases covering with (everything | rfl) | outer
  · exact .inl (.inl everything)
  · exact accepted
  · rcases accepted with (rfl | rfl) | inner
    · rw [not_below_of_no_slash (by decide)] at outer
      exact absurd outer (by decide)
    · exact .inr outer
    · exact .inr (below_trans outer inner)

theorem below_fresh {wide narrow : String} {wides : List String} {stem : List Char}
    (whole : narrow.toList = stem ++ ['/', '*'])
    (inside : below wide (String.ofList (stem ++ '/' :: (fresh wides).toList)) = true) :
    below wide narrow = true := by
  have ⟨stem', rest, wideEq, equal⟩ := (below_iff _ _).mp inside
  rw [String.toList_ofList] at equal
  have flat := slash_not_mem_fresh wides
  refine (below_iff wide narrow).mpr ?_
  rw [append_eq_append_iff] at equal
  rcases equal with ⟨middle, stemEq, restEq⟩ | ⟨middle, stemEq, restEq⟩
  · cases middle with
    | nil => exact ⟨stem', ['*'], wideEq, by rw [whole, stemEq]; simp⟩
    | cons char middle =>
      have tail : (fresh wides).toList = middle ++ '/' :: rest := by
        simpa using (cons.inj restEq).2
      exact absurd (by simp [tail]) flat
  · cases middle with
    | nil => exact ⟨stem', ['*'], wideEq, by rw [whole, stemEq]; simp⟩
    | cons char middle =>
      obtain ⟨rfl, -⟩ := cons.inj restEq
      exact ⟨stem', middle ++ ['/', '*'], wideEq, by rw [whole, stemEq]; simp⟩

/-- `*` accepts every text, `stem/*` every text below `stem`, any other pattern itself. -/
def glob : Language String String where
  accepts := globAccepts
  covers := globAccepts
  sound _ _ _ covering accepted := globAccepts_trans covering accepted
  probe narrow wides := by
    by_cases everything : narrow = "*"
    · refine ⟨fresh wides, by simp [globAccepts, everything], ?_⟩
      intro wide member accepted
      simp only [globAccepts, Bool.or_eq_true, beq_iff_eq] at accepted ⊢
      rcases accepted with (all | rfl) | inside
      · exact Or.inl (Or.inl all)
      · exact absurd member (fresh_not_mem wides)
      · rw [not_below_of_no_slash (slash_not_mem_fresh wides)] at inside
        exact absurd inside (by decide)
    by_cases ends : Text.endsWith narrow "/*" = true
    · obtain ⟨stem, whole, -⟩ := endsWith_slash_star ends
      refine ⟨String.ofList (stem ++ '/' :: (fresh wides).toList), ?_, ?_⟩
      · have inside : below narrow (String.ofList (stem ++ '/' :: (fresh wides).toList)) = true :=
          (below_iff _ _).mpr ⟨stem, _, whole, String.toList_ofList⟩
        rw [globAccepts, inside, Bool.or_true]
      · intro wide member accepted
        simp only [globAccepts, Bool.or_eq_true, beq_iff_eq] at accepted ⊢
        rcases accepted with (all | rfl) | inside
        · exact Or.inl (Or.inl all)
        · have short := length_lt_fresh member
          simp only [String.toList_ofList, List.length_append, List.length_cons] at short
          omega
        · exact Or.inr (below_fresh whole inside)
    · exact ⟨narrow, by simp [globAccepts], fun wide _ accepted => accepted⟩

end Pattern
