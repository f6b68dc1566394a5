import Rustkube.Storage

namespace Rustkube

open Function Json

/-- An object as its key holds it: the JSON without a `resourceVersion`, and the revision of the
write that stored it. -/
structure Entry where
  object : Value
  modRevision : Nat
deriving DecidableEq

/-- The current keys of the datastore, decoded. Every write takes the next revision, so no two
versions ever share one. -/
structure ObjectStore where
  revision : Nat
  entries : String → Option Entry
  stamped : ∀ key entry, entries key = some entry →
    0 < entry.modRevision ∧ entry.modRevision ≤ revision
  distinct : ∀ key other entry found, entries key = some entry → entries other = some found →
    found.modRevision = entry.modRevision → other = key

namespace ObjectStore

def empty : ObjectStore where
  revision := 0
  entries _ := none
  stamped _ _ stored := by simp at stored
  distinct _ _ _ _ stored := by simp at stored

/-- The revision a compare sees. An absent key has revision 0. -/
def modRevision (store : ObjectStore) (key : String) : Nat :=
  match store.entries key with
  | some entry => entry.modRevision
  | none => 0

/-- No expected revision is no condition. -/
def expects (store : ObjectStore) (key : String) (prevRevision : Option Nat) : Bool :=
  match prevRevision with
  | some expected => store.modRevision key == expected
  | none => true

/-- The store after the next write gave `key` the object. -/
def write (store : ObjectStore) (key : String) (object : Value) : ObjectStore where
  revision := store.revision + 1
  entries := Function.update store.entries key (some ⟨object, store.revision + 1⟩)
  stamped other entry stored := by
    by_cases same : other = key
    · subst same
      obtain rfl : (⟨object, store.revision + 1⟩ : Entry) = entry := by simpa using stored
      simp
    · rw [Function.update_of_ne same] at stored
      have := store.stamped other entry stored
      omega
  distinct first second entry found here there equal := by
    by_cases new : first = key
    · by_cases also : second = key
      · rw [new, also]
      · rw [new, Function.update_self] at here
        rw [Function.update_of_ne also] at there
        have older := store.stamped second found there
        cases here
        simp only at equal
        omega
    · by_cases also : second = key
      · rw [also, Function.update_self] at there
        rw [Function.update_of_ne new] at here
        have older := store.stamped first entry here
        cases there
        simp only at equal
        omega
      · rw [Function.update_of_ne new] at here
        rw [Function.update_of_ne also] at there
        exact store.distinct first second entry found here there equal

variable {store : ObjectStore} {other key : String} {entry : Entry}

theorem erased_entries (stored : update store.entries key none other = some entry) :
    store.entries other = some entry := by
  by_cases same : other = key
  · rw [same, update_self] at stored
    cases stored
  · rwa [update_of_ne same] at stored

def erase (store : ObjectStore) (key : String) : ObjectStore where
  revision := store.revision + 1
  entries := Function.update store.entries key none
  stamped other entry stored := by
    have := store.stamped other entry (erased_entries stored)
    omega
  distinct first second entry found here there :=
    store.distinct first second entry found (erased_entries here) (erased_entries there)

/-- `KvStore::put`: a transaction on the key's revision when one is expected. -/
def put (store : ObjectStore) (key : String) (object : Value) (prevRevision : Option Nat) :
    Except StoreError ObjectStore :=
  if store.expects key prevRevision then .ok (store.write key object) else .error .conflict

/-- `KvStore::delete`. Deleting a key that is not there is no error and no write. -/
def delete (store : ObjectStore) (key : String) (prevRevision : Option Nat) :
    Except StoreError ObjectStore :=
  if store.expects key prevRevision then
    .ok (if (store.entries key).isSome then store.erase key else store)
  else .error .conflict

@[simp] theorem write_entries_self (store : ObjectStore) (key : String) (object : Value) :
    (store.write key object).entries key = some ⟨object, store.revision + 1⟩ :=
  update_self ..

theorem write_entries_of_ne (store : ObjectStore) (key : String) (object : Value)
    (different : other ≠ key) : (store.write key object).entries other = store.entries other :=
  update_of_ne different ..

@[simp] theorem erase_entries_self (store : ObjectStore) (key : String) :
    (store.erase key).entries key = none :=
  update_self ..

theorem erase_entries_of_ne (store : ObjectStore) (key : String)
    (different : other ≠ key) : (store.erase key).entries other = store.entries other :=
  update_of_ne different ..

theorem expects_iff {expected : Nat} :
    store.expects key (some expected) = true ↔ store.modRevision key = expected := by
  simp [expects]

theorem expects_stamped (positive : 0 < entry.modRevision)
    (holds : store.expects key (some entry.modRevision) = true) :
    ∃ current, store.entries key = some current ∧ current.modRevision = entry.modRevision := by
  rw [expects_iff, modRevision] at holds
  cases stored : store.entries key with
  | none => simp [stored] at holds; omega
  | some current => exact ⟨current, rfl, by simpa [stored] using holds⟩

variable {after : ObjectStore} {prevRevision : Option Nat} {object : Value}

theorem put_ok (landed : store.put key object prevRevision = .ok after) :
    store.expects key prevRevision = true ∧ after = store.write key object := by
  unfold put at landed
  split_ifs at landed with held
  exact ⟨held, by simpa using landed.symm⟩

theorem delete_ok (landed : store.delete key prevRevision = .ok after) :
    store.expects key prevRevision = true ∧
      after = if (store.entries key).isSome then store.erase key else store := by
  unfold delete at landed
  split_ifs at landed with held present
  · exact ⟨held, by simp_all⟩
  · exact ⟨held, by simp_all⟩

/-- `entry` was read under `key`: what has its revision is that entry under that key. -/
structure Remembers (store : ObjectStore) (key : String) (entry : Entry) : Prop where
  past : entry.modRevision ≤ store.revision
  current : ∀ other found, store.entries other = some found →
    found.modRevision = entry.modRevision → other = key ∧ found = entry

theorem Remembers.of_read (read : store.entries key = some entry) : store.Remembers key entry := by
  refine ⟨(store.stamped key entry read).2, fun other found here equal => ?_⟩
  obtain rfl := store.distinct key other entry found read here equal
  exact ⟨rfl, Option.some.inj (here.symm.trans read)⟩

variable (remembered : store.Remembers key entry)

include remembered

theorem Remembers.write (object : Value) : (store.write other object).Remembers key entry := by
  refine ⟨Nat.le_succ_of_le remembered.past, fun third found here same => ?_⟩
  by_cases equal : third = other
  · subst equal
    rw [write_entries_self] at here
    have stamp := congrArg Entry.modRevision (Option.some.inj here)
    have past := remembered.past
    simp only at stamp
    omega
  · rw [write_entries_of_ne store other object equal] at here
    exact remembered.current third found here same

theorem Remembers.erase : (store.erase other).Remembers key entry :=
  ⟨Nat.le_succ_of_le remembered.past,
    fun third found here => remembered.current third found (erased_entries here)⟩

theorem Remembers.put (landed : store.put other object prevRevision = .ok after) :
    after.Remembers key entry := by
  rw [(put_ok landed).2]
  exact remembered.write object

theorem Remembers.delete (landed : store.delete other prevRevision = .ok after) :
    after.Remembers key entry := by
  rw [(delete_ok landed).2]
  split_ifs
  · exact remembered.erase
  · exact remembered

theorem Remembers.unchanged {found : Entry} (here : store.entries key = some found)
    (same : store.modRevision key = entry.modRevision) : found = entry := by
  rw [modRevision, here] at same
  exact (remembered.current key found here same).2

end ObjectStore

end Rustkube
