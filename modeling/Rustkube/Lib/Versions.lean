import Mathlib.Data.List.Basic

/-- An object as it was at one of its writes. -/
structure Version (Obj : Type) where
  number : Nat
  object : Obj
deriving DecidableEq

/-- A store that numbers its writes, with every version it ever held. -/
structure Versions (Key Obj : Type) where
  current : Key → Option (Version Obj)
  past : List (Key × Version Obj)
  clock : Nat

namespace Versions

open List Option

variable {Key Obj : Type} [DecidableEq Key]

def empty : Versions Key Obj := ⟨fun _ => none, [], 0⟩

variable (store : Versions Key Obj) (key : Key) (obj : Obj)

/-- The version the next write makes. -/
def next : Version Obj := ⟨store.clock + 1, obj⟩

def write : Versions Key Obj where
  current := Function.update store.current key (some (store.next obj))
  past := (key, store.next obj) :: store.past
  clock := store.clock + 1

def remove : Versions Key Obj := { store with current := Function.update store.current key none }

/-- A write that is made only where the version is the one that was seen. -/
def swap (number : Nat) : Option (Versions Key Obj) :=
  match store.current key with
  | some stored => if stored.number = number then some (store.write key obj) else none
  | none => none

/-- No version of that key was ever stored. -/
def Fresh : Prop := ∀ entry ∈ store.past, entry.1 ≠ key

instance : Decidable (store.Fresh key) := inferInstanceAs (Decidable (∀ _ ∈ _, _))

/-- What is stored is on record, and no two records have one number. -/
structure Sound : Prop where
  stored : ∀ key version, store.current key = some version → (key, version) ∈ store.past
  bounded : ∀ entry ∈ store.past, entry.2.number ≤ store.clock
  unique : ∀ entry ∈ store.past, ∀ other ∈ store.past, entry.2.number = other.2.number →
    entry = other

variable {store key obj} {other : Key}

omit [DecidableEq Key] in
theorem sound_empty : (empty : Versions Key Obj).Sound := ⟨nofun, nofun, nofun⟩

@[simp] theorem write_current_self : (store.write key obj).current key = some (store.next obj) := by
  simp [write]

theorem write_current_of_ne (different : other ≠ key) :
    (store.write key obj).current other = store.current other := by
  simp [write, different]

@[simp] theorem remove_current_self : (store.remove key).current key = none := by simp [remove]

theorem remove_current_of_ne (different : other ≠ key) :
    (store.remove key).current other = store.current other := by
  simp [remove, different]

theorem current_of_remove {version : Version Obj}
    (found : (store.remove key).current other = some version) :
    store.current other = some version := by
  by_cases same : other = key
  · subst same
    simp at found
  · rwa [remove_current_of_ne same] at found

theorem Sound.write (sound : store.Sound) (key : Key) (obj : Obj) :
    (store.write key obj).Sound where
  stored other version found := by
    by_cases same : other = key
    · subst same
      rw [write_current_self] at found
      cases found
      exact .head _
    · rw [write_current_of_ne same] at found
      exact .tail _ (sound.stored other version found)
  bounded := forall_mem_cons.mpr
    ⟨Nat.le_refl _, fun entry old => Nat.le_succ_of_le (sound.bounded entry old)⟩
  unique entry member other found same := by
    have older : ∀ entry ∈ store.past, entry.2.number < store.clock + 1 := fun entry member =>
      Nat.lt_succ_of_le (sound.bounded entry member)
    rcases mem_cons.mp member with rfl | old <;> rcases mem_cons.mp found with rfl | past
    · rfl
    · exact absurd same (Nat.ne_of_gt (older other past))
    · exact absurd same (Nat.ne_of_lt (older entry old))
    · exact sound.unique entry old other past same

theorem Sound.remove (sound : store.Sound) (key : Key) : (store.remove key).Sound :=
  ⟨fun other version found => sound.stored other version (current_of_remove found), sound.bounded,
    sound.unique⟩

theorem Sound.swap_spec (sound : store.Sound) {seen : Version Obj}
    (known : (key, seen) ∈ store.past)
    {after : Versions Key Obj} (landed : store.swap key obj seen.number = some after) :
    store.current key = some seen ∧ after = store.write key obj := by
  unfold swap at landed
  split at landed
  · next stored found =>
    split_ifs at landed with same
    have equal := sound.unique _ (sound.stored key stored found) _ known same
    exact ⟨(Prod.mk.inj equal).2 ▸ found, (some.inj landed).symm⟩
  · cases landed

variable {Mark : Type} {mark : Obj → Option Mark}

/-- A mark that an object has, once it has one, for good. -/
structure Lasting (mark : Obj → Option Mark) (store : Versions Key Obj) : Prop where
  kept : ∀ key version found, (key, version) ∈ store.past → mark version.object = some found →
    ∀ stored, store.current key = some stored → mark stored.object = some found
  one : ∀ key version other found different, (key, version) ∈ store.past →
    (key, other) ∈ store.past →
    mark version.object = some found → mark other.object = some different → found = different

omit [DecidableEq Key] in
theorem lasting_empty : Lasting mark (empty : Versions Key Obj) := ⟨nofun, nofun⟩

variable (lasting : Lasting mark store)

include lasting

theorem Lasting.write_keeping
    (keeps : ∀ version was, (key, version) ∈ store.past → mark version.object = some was →
      mark obj = some was) : Lasting mark (store.write key obj) := by
  refine ⟨fun other version was member marked last current => ?_,
    fun other version second was is member present first marked => ?_⟩
  · by_cases same : other = key
    · subst same
      rw [write_current_self] at current
      cases current
      rcases mem_cons.mp member with new | old
      · cases new
        exact marked
      · exact keeps version was old marked
    · rw [write_current_of_ne same] at current
      rcases mem_cons.mp member with new | old
      · exact absurd (Prod.mk.inj new).1 same
      · exact lasting.kept other version was old marked last current
  · rcases mem_cons.mp member with new | old <;> rcases mem_cons.mp present with recent | past
    · cases new
      cases recent
      exact some.inj (first.symm.trans marked)
    · cases new
      exact some.inj (first.symm.trans (keeps second is past marked))
    · cases recent
      exact some.inj ((keeps version was old first).symm.trans marked)
    · exact lasting.one other version second was is old past first marked

theorem Lasting.write {stored : Version Obj} (found : store.current key = some stored)
    (keeps : ∀ was, mark stored.object = some was → mark obj = some was) :
    Lasting mark (store.write key obj) :=
  lasting.write_keeping fun version was member marked =>
    keeps was (lasting.kept key version was member marked stored found)

theorem Lasting.write_fresh (fresh : store.Fresh key) : Lasting mark (store.write key obj) :=
  lasting.write_keeping fun _ _ member _ => absurd rfl (fresh _ member)

theorem Lasting.remove (key : Key) : Lasting mark (store.remove key) :=
  ⟨fun other version was member marked last current =>
    lasting.kept other version was member marked last (current_of_remove current), lasting.one⟩

end Versions
