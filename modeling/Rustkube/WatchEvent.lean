import Rustkube.Storage

namespace Rustkube

open List Storage Text

/-- A watch event. The last one ends its stream: whoever reads it has to list again. -/
inductive WatchEvent where
  | added (key : String) (value : Bytes) (revision : Nat)
  | modified (key : String) (value : Bytes) (revision : Nat) (prevValue : Option Bytes)
  | deleted (key : String) (revision : Nat) (prevValue : Option Bytes)
  | bookmark (revision : Nat)
  | error (code : Nat) (message : String) (revision : Nat)
deriving DecidableEq

def WatchEvent.revision : WatchEvent → Nat
  | .added _ _ revision => revision
  | .modified _ _ revision _ => revision
  | .deleted _ revision _ => revision
  | .bookmark revision => revision
  | .error _ _ revision => revision

def WatchEvent.isError : WatchEvent → Bool
  | .error _ _ _ => true
  | _ => false

@[simp] theorem WatchEvent.error_isError (code : Nat) (message : String) (revision : Nat) :
    (error code message revision).isError = true := rfl

namespace Storage

def insertKv (kv : KeyValue) : List KeyValue → List KeyValue
  | [] => [kv]
  | head :: rest =>
    if kv.key = head.key then kv :: rest
    else if utf8 kv.key < utf8 head.key then kv :: head :: rest
    else head :: insertKv kv rest

variable {kvs : List KeyValue}

theorem mem_insertKv {kv other : KeyValue} (member : other ∈ insertKv kv kvs) :
    other = kv ∨ other ∈ kvs := by
  induction kvs with
  | nil => simpa [insertKv] using member
  | cons head rest ih =>
    unfold insertKv at member
    split_ifs at member with same before
    · exact (mem_cons.mp member).imp id (mem_cons_of_mem head)
    · exact mem_cons.mp member
    · rcases mem_cons.mp member with rfl | later
      · exact Or.inr mem_cons_self
      · exact (ih later).imp id (mem_cons_of_mem head)

theorem insertKv_ordered {kv : KeyValue}
    (ordered : kvs.Pairwise fun left right => utf8 left.key < utf8 right.key) :
    (insertKv kv kvs).Pairwise fun left right => utf8 left.key < utf8 right.key := by
  induction kvs with
  | nil => simp [insertKv]
  | cons head rest ih =>
    have ⟨first, sorted⟩ := pairwise_cons.mp ordered
    unfold insertKv
    split_ifs with same before
    · refine pairwise_cons.mpr ⟨?_, sorted⟩
      intro later member
      rw [same]
      exact first later member
    · exact pairwise_cons.mpr ⟨forall_mem_cons.mpr
        ⟨before, fun later inside => List.lt_trans before (first later inside)⟩, ordered⟩
    · refine pairwise_cons.mpr ⟨?_, ih sorted⟩
      intro later member
      rcases mem_insertKv member with rfl | inside
      · by_contra notMore
        exact same (utf8_injective (List.le_antisymm notMore before))
      · exact first later inside

namespace Keyspace

def empty : Keyspace := ⟨[], .nil⟩

def get? (space : Keyspace) (key : String) : Option KeyValue := space.kvs.find? (·.key = key)

def insert (space : Keyspace) (kv : KeyValue) : Keyspace :=
  ⟨insertKv kv space.kvs, insertKv_ordered space.ordered⟩

def remove (space : Keyspace) (key : String) : Keyspace :=
  ⟨space.kvs.filter (·.key ≠ key), space.ordered.filter _⟩

theorem get?_insert (space : Keyspace) (kv : KeyValue) (key : String) :
    (space.insert kv).get? key = if key = kv.key then some kv else space.get? key := by
  change (insertKv kv space.kvs).find? _ = if _ then _ else space.kvs.find? _
  induction space.kvs with
  | nil =>
    by_cases same : key = kv.key
    · simp [insertKv, same]
    · simp [insertKv, same, Ne.symm same]
  | cons head rest ih =>
    unfold insertKv
    by_cases same : key = kv.key
    · rw [if_pos same] at ih ⊢
      split_ifs with replaced before
      · simp [same]
      · simp [same]
      · rw [find?_cons_of_neg (by simpa [same] using Ne.symm replaced)]
        exact ih
    · rw [if_neg same] at ih ⊢
      split_ifs with replaced before
      · rw [find?_cons_of_neg (by simpa using Ne.symm same),
          find?_cons_of_neg (by simpa [← replaced] using Ne.symm same)]
      · rw [find?_cons_of_neg (by simpa using Ne.symm same)]
      · by_cases found : head.key = key
        · rw [find?_cons_of_pos (by simpa using found), find?_cons_of_pos (by simpa using found)]
        · rw [find?_cons_of_neg (by simpa using found), find?_cons_of_neg (by simpa using found)]
          exact ih

theorem get?_remove (space : Keyspace) (removed key : String) :
    (space.remove removed).get? key = if key = removed then none else space.get? key := by
  change (space.kvs.filter _).find? _ = if _ then _ else space.kvs.find? _
  rw [find?_filter]
  by_cases same : key = removed
  · simp [same]
  · rw [if_neg same]
    congr 1
    funext kv
    by_cases found : kv.key = key
    · simp [found, same]
    · simp [found]

end Keyspace

end Storage

/-- One write below a watched prefix: what its key holds from then on, if anything. -/
structure Change where
  revision : Nat
  key : String
  value : Option Bytes

namespace Change

/-- What the datastore's watch says of it: a key that held nothing was created. -/
def event (before : Keyspace) (change : Change) : WatchEvent :=
  match change.value with
  | some value =>
    if (before.get? change.key).isSome then .modified change.key value change.revision none
    else .added change.key value change.revision
  | none => .deleted change.key change.revision none

def apply (before : Keyspace) (change : Change) : Keyspace :=
  match change.value with
  | some value => before.insert ⟨change.key, value, change.revision⟩
  | none => before.remove change.key

@[simp] theorem event_revision (before : Keyspace) (change : Change) :
    (change.event before).revision = change.revision := by
  unfold event
  split
  · split_ifs <;> rfl
  · rfl

@[simp] theorem event_isError (before : Keyspace) (change : Change) :
    (change.event before).isError = false := by
  unfold event
  split
  · split_ifs <;> rfl
  · rfl

/-- The keys after a list of writes, from an empty datastore on. -/
def replay (changes : List Change) : Keyspace := changes.foldl apply .empty

/-- What the datastore's watch says of a list of writes. -/
def events (before : Keyspace) : List Change → List WatchEvent
  | [] => []
  | change :: rest => change.event before :: events (change.apply before) rest

theorem replay_append (changes : List Change) (change : Change) :
    replay (changes ++ [change]) = change.apply (replay changes) := by
  simp [replay]

end Change

/-- The datastore as one prefix sees it: the writes below the prefix, oldest first, and the revision
of the whole datastore. Every write has a revision of its own. -/
structure EventStore where
  revision : Nat
  log : List Change
  increasing : log.Pairwise fun earlier later => earlier.revision < later.revision
  bounded : ∀ change ∈ log, change.revision ≤ revision

namespace EventStore

/-- A datastore at some revision with nothing below the prefix yet. -/
def untouched (revision : Nat) : EventStore := ⟨revision, [], .nil, by simp⟩

/-- The keys below the prefix at a revision. -/
def contentAt (store : EventStore) (revision : Nat) : Keyspace :=
  Change.replay (store.log.filter (·.revision ≤ revision))

def write (store : EventStore) (key : String) (value : Option Bytes) : EventStore where
  revision := store.revision + 1
  log := store.log ++ [⟨store.revision + 1, key, value⟩]
  increasing := by
    rw [List.pairwise_append]
    refine ⟨store.increasing, List.pairwise_singleton _ _, ?_⟩
    intro earlier member later appended
    have old := store.bounded earlier member
    rw [List.mem_singleton.mp appended]
    exact Nat.lt_succ_of_le old
  bounded := List.forall_mem_concat (fun change old => Nat.le_succ_of_le (store.bounded change old))
    le_rfl

/-- A write elsewhere in the datastore. -/
def advance (store : EventStore) : EventStore where
  revision := store.revision + 1
  log := store.log
  increasing := store.increasing
  bounded change member := Nat.le_succ_of_le (store.bounded change member)

variable {store : EventStore} {revision : Nat}

theorem contentAt_write (past : revision ≤ store.revision) (key : String) (value : Option Bytes) :
    (store.write key value).contentAt revision = store.contentAt revision := by
  have later : ¬ store.revision + 1 ≤ revision := by omega
  simp [contentAt, write, filter_append, later]

variable {changes : List Change} {change : Change} {count : Nat}

theorem newer_cons (behind : ∀ later ∈ changes, change.revision < later.revision)
    (newer : revision < change.revision) : ∀ later ∈ change :: changes, revision < later.revision :=
  forall_mem_cons.mpr ⟨newer, fun later after => Nat.lt_trans newer (behind later after)⟩

theorem filter_newer (newer : ∀ change ∈ changes, revision < change.revision) :
    changes.filter (·.revision ≤ revision) = [] := by
  rw [filter_eq_nil_iff]
  intro change member
  have after := newer change member
  simp only [decide_eq_true_eq]
  omega

theorem contentAt_take (before : ∀ change ∈ store.log.take count, change.revision ≤ revision)
    (behind : ∀ change ∈ store.log.drop count, revision < change.revision) :
    store.contentAt revision = Change.replay (store.log.take count) := by
  have kept : (store.log.take count).filter (fun change => decide (change.revision ≤ revision)) =
      store.log.take count := by
    rw [filter_eq_self]
    intro change member
    simpa using before change member
  have dropped := filter_newer behind
  rw [contentAt, ← take_append_drop count store.log, filter_append,
    kept, dropped, append_nil, take_append_drop]

def since (store : EventStore) (revision : Nat) : List Change :=
  store.log.filter (revision < ·.revision)

theorem filter_since {earlier later : Nat} (order : earlier ≤ later)
    (increasing : changes.Pairwise fun first second => first.revision < second.revision) :
    changes.filter (·.revision ≤ later) = changes.filter (·.revision ≤ earlier) ++
      (changes.filter (earlier < ·.revision)).filter (·.revision ≤ later) := by
  induction changes with
  | nil => rfl
  | cons change rest ih =>
    have ⟨first, sorted⟩ := pairwise_cons.mp increasing
    by_cases old : change.revision ≤ earlier
    · have within : change.revision ≤ later := Nat.le_trans old order
      simp [old, within, ih sorted, Nat.not_lt.mpr old]
    · have newer := newer_cons first (Nat.lt_of_not_le old)
      have all : (change :: rest).filter (fun other => decide (earlier < other.revision)) =
          change :: rest := by
        rw [filter_eq_self]
        intro other member
        simpa using newer other member
      rw [filter_newer newer, all, nil_append]

theorem contentAt_since (store : EventStore) {earlier later : Nat} (order : earlier ≤ later) :
    store.contentAt later = ((store.since earlier).filter (·.revision ≤ later)).foldl
      (fun space change => change.apply space) (store.contentAt earlier) := by
  rw [contentAt, filter_since order store.increasing, Change.replay, foldl_append]
  rfl

theorem contentAt_next (found : store.log[count]? = some change)
    (before : ∀ earlier ∈ store.log.take count, earlier.revision ≤ revision)
    (newer : revision < change.revision) :
    store.contentAt change.revision = change.apply (store.contentAt revision) := by
  have ⟨inside, isChange⟩ := List.getElem?_eq_some_iff.mp found
  have increasing := store.increasing
  rw [← take_append_drop count store.log, drop_eq_getElem_cons inside, isChange,
    pairwise_append, pairwise_cons] at increasing
  obtain ⟨-, ⟨first, -⟩, -⟩ := increasing
  have rest : ∀ later ∈ store.log.drop count, revision < later.revision := by
    rw [drop_eq_getElem_cons inside, isChange]
    exact newer_cons first newer
  have all : ∀ earlier ∈ store.log.take (count + 1), earlier.revision ≤ change.revision := by
    rw [take_add_one, found, Option.toList_some]
    exact forall_mem_concat
      (fun earlier old => Nat.le_of_lt (Nat.lt_of_le_of_lt (before earlier old) newer)) le_rfl
  rw [contentAt_take all first, contentAt_take before rest, take_add_one, found,
    Option.toList_some, Change.replay_append]

end EventStore

end Rustkube
