import Rustkube.Lib.Transition

/-- Amounts under names. A map that is iterated in the order of its names. -/
structure Tally (T : Type) where
  entries : List (String × T)
  ordered : entries.Pairwise fun left right => left.1 < right.1

namespace Tally

open List

variable {T : Type}

def empty : Tally T := ⟨[], .nil⟩

def get? (tally : Tally T) (name : String) : Option T := tally.entries.lookup name

def isEmpty (tally : Tally T) : Bool := tally.entries.isEmpty

def names (tally : Tally T) : List String := tally.entries.map Prod.fst

def alterEntries (name : String) (change : Option T → T) : List (String × T) → List (String × T)
  | [] => [(name, change none)]
  | (other, amount) :: rest =>
    if name = other then (name, change (some amount)) :: rest
    else if name < other then (name, change none) :: (other, amount) :: rest
    else (other, amount) :: alterEntries name change rest

variable {name other : String} {change : Option T → T} {entries : List (String × T)}

theorem mem_alterEntries {entry : String × T} (member : entry ∈ alterEntries name change entries) :
    entry.1 = name ∨ entry ∈ entries := by
  induction entries with
  | nil => exact .inl (congrArg Prod.fst (mem_singleton.mp member))
  | cons head rest ih =>
    unfold alterEntries at member
    split_ifs at member with same before
    · rcases mem_cons.mp member with rfl | old
      · exact .inl rfl
      · exact .inr (.tail _ old)
    · rcases mem_cons.mp member with rfl | old
      · exact .inl rfl
      · exact .inr old
    · rcases mem_cons.mp member with rfl | old
      · exact Or.inr mem_cons_self
      · exact (ih old).imp_right (mem_cons_of_mem _)

theorem alterEntries_ordered (ordered : entries.Pairwise fun left right => left.1 < right.1) :
    (alterEntries name change entries).Pairwise fun left right => left.1 < right.1 := by
  induction entries with
  | nil => exact pairwise_singleton _ _
  | cons head rest ih =>
    have ⟨above, tail⟩ := pairwise_cons.mp ordered
    unfold alterEntries
    split_ifs with same before
    · subst same
      exact pairwise_cons.mpr ⟨above, tail⟩
    · exact pairwise_cons.mpr ⟨forall_mem_cons.mpr
        ⟨before, fun entry later => String.lt_trans before (above entry later)⟩, ordered⟩
    · refine pairwise_cons.mpr ⟨fun entry member => ?_, ih tail⟩
      rcases mem_alterEntries member with isName | later
      · rw [isName]
        exact Std.lt_of_le_of_ne before (Ne.symm same)
      · exact above entry later

theorem lookup_eq_none_of_lt (above : ∀ entry ∈ entries, name < entry.1) :
    entries.lookup name = none := by
  rw [lookup_eq_none_iff]
  intro entry member
  have : name ≠ entry.1 := fun same => String.lt_irrefl _ (same ▸ above entry member)
  simpa using this

theorem lookup_alterEntries_self (ordered : entries.Pairwise fun left right => left.1 < right.1) :
    (alterEntries name change entries).lookup name = some (change (entries.lookup name)) := by
  induction entries with
  | nil => simp [alterEntries]
  | cons head rest ih =>
    have ⟨other, amount⟩ := head
    have ⟨above, tail⟩ := pairwise_cons.mp ordered
    unfold alterEntries
    split_ifs with same before
    · simp [same]
    · have absent : ((other, amount) :: rest).lookup name = none := by
        exact lookup_eq_none_of_lt (forall_mem_cons.mpr
          ⟨before, fun entry later => String.lt_trans before (above entry later)⟩)
      rw [absent]
      simp
    · rw [lookup_cons_of_ne same, lookup_cons_of_ne same]
      exact ih tail

theorem lookup_alterEntries_of_ne (different : other ≠ name) :
    (alterEntries name change entries).lookup other = entries.lookup other := by
  induction entries with
  | nil => exact lookup_cons_of_ne different
  | cons head rest ih =>
    unfold alterEntries
    split_ifs with same before
    · rw [lookup_cons_of_ne different, lookup_cons_of_ne (same ▸ different)]
    · exact lookup_cons_of_ne different
    · rw [lookup_cons, lookup_cons, ih]

/-- `*map.entry(name).or_default()` put through `change`. -/
def alter (tally : Tally T) (name : String) (change : Option T → T) : Tally T :=
  ⟨alterEntries name change tally.entries, alterEntries_ordered tally.ordered⟩

@[simp] theorem get?_alter_self (tally : Tally T) (name : String) (change : Option T → T) :
    (tally.alter name change).get? name = some (change (tally.get? name)) :=
  lookup_alterEntries_self tally.ordered

theorem get?_alter_of_ne (tally : Tally T) (change : Option T → T)
    (different : other ≠ name) : (tally.alter name change).get? other = tally.get? other :=
  lookup_alterEntries_of_ne different

/-- The amounts of `other`, one after the other, combined with what their names have. -/
def merge (combine : Option T → T → T) (tally other : Tally T) : Tally T :=
  other.entries.foldl (fun tally entry => tally.alter entry.1 (combine · entry.2)) tally

theorem get?_foldl_alter (combine : Option T → T → T) (name : String) (tally : Tally T)
    {entries : List (String × T)} (ordered : entries.Pairwise fun left right => left.1 < right.1) :
    (entries.foldl (fun tally entry => tally.alter entry.1 (combine · entry.2)) tally).get? name =
      match entries.lookup name with
      | some amount => some (combine (tally.get? name) amount)
      | none => tally.get? name := by
  induction entries generalizing tally with
  | nil => rfl
  | cons head rest ih =>
    have ⟨other, amount⟩ := head
    have ⟨above, tail⟩ := pairwise_cons.mp ordered
    rw [foldl_cons, ih _ tail]
    by_cases same : name = other
    · subst same
      rw [lookup_eq_none_of_lt above]
      simp
    · rw [lookup_cons_of_ne same, get?_alter_of_ne _ _ same]

theorem get?_merge (combine : Option T → T → T) (tally other : Tally T) (name : String) :
    (merge combine tally other).get? name =
      match other.get? name with
      | some amount => some (combine (tally.get? name) amount)
      | none => tally.get? name :=
  get?_foldl_alter combine name tally other.ordered

/-- The amounts of some fields. -/
def ofFields {V : Type} (read : String → V → T) (fields : List (String × V)) : Tally T :=
  fields.foldr (fun entry tally => tally.alter entry.1 fun _ => read entry.1 entry.2) empty

theorem get?_ofFields {V : Type} (read : String → V → T) (fields : List (String × V))
    (name : String) : (ofFields read fields).get? name = (fields.lookup name).map (read name) := by
  induction fields with
  | nil => rfl
  | cons entry rest ih =>
    have ⟨other, value⟩ := entry
    rw [ofFields, foldr_cons]
    by_cases same : name = other
    · subst same
      simp
    · rw [get?_alter_of_ne _ _ same, lookup_cons_of_ne same]
      exact ih

def filter (tally : Tally T) (keep : String → Bool) : Tally T :=
  ⟨tally.entries.filter fun entry => keep entry.1, tally.ordered.filter _⟩

theorem get?_eq_some_iff {tally : Tally T} {name : String} {amount : T} :
    tally.get? name = some amount ↔ (name, amount) ∈ tally.entries := by
  have ⟨entries, ordered⟩ := tally
  change entries.lookup name = some amount ↔ (name, amount) ∈ entries
  induction entries with
  | nil => simp
  | cons head rest ih =>
    have ⟨other, held⟩ := head
    have ⟨above, tail⟩ := pairwise_cons.mp ordered
    by_cases same : name = other
    · subst same
      have apart : (name, amount) ∉ rest := fun member =>
        String.lt_irrefl name (above (name, amount) member)
      simp [apart, eq_comm]
    · rw [lookup_cons_of_ne same, ih tail]
      simp [same]

variable [Zero T]

/-- A name without an amount has none. -/
def amount (tally : Tally T) (name : String) : T := (tally.get? name).getD 0

variable [Add T]

def add (tally : Tally T) (name : String) (more : T) : Tally T :=
  tally.alter name fun held => held.getD 0 + more

def addAll (tally other : Tally T) : Tally T :=
  merge (fun held more => held.getD 0 + more) tally other

variable [LT T] [DecidableLT T]

def maxAll (tally other : Tally T) : Tally T :=
  merge (fun held more => if held.getD 0 < more then more else held.getD 0) tally other

end Tally
