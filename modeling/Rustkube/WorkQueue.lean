import Mathlib.Data.List.Sort

/- The work queue of the controllers: a key waits at most once, is worked on at most once at a time,
and has at most one deadline. -/
namespace Rustkube

open Bool List Option

structure WorkQueue.Entry where
  queued : Bool
  processing : Bool
  dirty : Bool
  deadline : Option Int
deriving DecidableEq

namespace WorkQueue.Entry

def default : Entry := ⟨false, false, false, none⟩

def added (entry : Entry) : Entry :=
  if entry.processing then { entry with dirty := true } else { entry with queued := true }

/-- The key is to be worked on again: it waits, it is added when the work on it ends, or it is added
no later than that. -/
def Covers (entry : Entry) (time : Int) : Prop :=
  entry.queued = true ∨ entry.processing = true ∧ entry.dirty = true ∨
    ∃ deadline ∈ entry.deadline, deadline ≤ time

theorem added_covers (entry : Entry) (time : Int) : entry.added.Covers time := by
  unfold added
  split_ifs with processing
  · exact .inr (.inl ⟨processing, rfl⟩)
  · exact .inl rfl

@[simp] theorem added_processing (entry : Entry) : entry.added.processing = entry.processing := by
  unfold added
  split_ifs <;> rfl

end WorkQueue.Entry

/-- The deadlines are in order of time. -/
structure WorkQueue (Key : Type) where
  ready : List Key
  entries : Key → Option WorkQueue.Entry
  deadlines : List (Int × Key)

namespace WorkQueue

variable {Key : Type} [DecidableEq Key]

def empty : WorkQueue Key := ⟨[], fun _ => none, []⟩

section

variable (queue : WorkQueue Key) (key : Key)

/-- `entries.entry(key).or_default()` -/
def entryOf : Entry := (queue.entries key).getD .default

def put (entry : Entry) : WorkQueue Key :=
  { queue with entries := Function.update queue.entries key (some entry) }

/-- What is being worked on is worked on once more. -/
def add : WorkQueue Key :=
  let entry := queue.entryOf key
  if entry.processing then queue.put key { entry with dirty := true }
  else if entry.queued then queue.put key entry
  else { queue.put key { entry with queued := true } with ready := queue.ready ++ [key] }

def removeDeadline (deadlines : List (Int × Key)) (deadline : Int) : List (Int × Key) :=
  deadlines.filter (· ≠ (deadline, key))

def insertDeadline (deadlines : List (Int × Key)) (deadline : Int) : List (Int × Key) :=
  deadlines.orderedInsert (·.1 ≤ ·.1) (deadline, key)

/-- The earliest deadline is kept. -/
def addAt (deadline : Int) : WorkQueue Key :=
  let entry := queue.entryOf key
  let next := queue.put key { entry with deadline := some deadline }
  match entry.deadline with
  | some old =>
    if old ≤ deadline then queue
    else { next with
      deadlines := insertDeadline key (removeDeadline key queue.deadlines old) deadline }
  | none => { next with deadlines := insertDeadline key queue.deadlines deadline }

def cancelDeadline : WorkQueue Key :=
  let entry := { queue.entryOf key with deadline := none }
  let deadlines := match (queue.entryOf key).deadline with
    | some old => removeDeadline key queue.deadlines old
    | none => queue.deadlines
  if (queue.entries key).isNone then queue
  else if entry.queued || entry.processing then { queue.put key entry with deadlines }
  else { queue with entries := Function.update queue.entries key none, deadlines }

/-- What is due is added, the earliest first. -/
def fire (now : Int) : List (Int × Key) → WorkQueue Key → WorkQueue Key
  | [], queue => { queue with deadlines := [] }
  | (deadline, key) :: later, queue =>
    if deadline ≤ now then
      fire now later ((queue.put key { queue.entryOf key with deadline := none }).add key)
    else { queue with deadlines := (deadline, key) :: later }

/-- One look of `next`: it takes what waits longest. -/
def next (now : Int) : WorkQueue Key × Option Key :=
  let fired := fire now queue.deadlines queue
  match fired.ready with
  | key :: rest =>
    ({ fired.put key
      { fired.entryOf key with queued := false, processing := true } with ready := rest }, some key)
  | [] => (fired, none)

def done : WorkQueue Key :=
  let entry := { queue.entryOf key with processing := false }
  if entry.dirty then
    { queue.put key { entry with dirty := false, queued := true } with
      ready := queue.ready ++ [key] }
  else if entry.deadline.isNone then
    { queue with entries := Function.update queue.entries key none }
  else queue.put key entry

end

section

/-- The queue, the deadlines and the entries tell the same. -/
structure Sound (queue : WorkQueue Key) : Prop where
  ready : ∀ key, key ∈ queue.ready ↔ (queue.entryOf key).queued = true
  once : queue.ready.Nodup
  armed : ∀ deadline key, (deadline, key) ∈ queue.deadlines ↔ (queue.entryOf key).deadline =
    some deadline
  single : queue.deadlines.Nodup
  ordered : queue.deadlines.Pairwise (·.1 ≤ ·.1)
  dirty : ∀ key, (queue.entryOf key).dirty = true → (queue.entryOf key).processing = true
  apart : ∀ key, (queue.entryOf key).queued = true → (queue.entryOf key).processing = false

variable {queue : WorkQueue Key} {key other : Key} {entry : Entry}

omit [DecidableEq Key] in
theorem sound_empty : (empty : WorkQueue Key).Sound := by
  constructor <;> simp [empty, entryOf, Entry.default]

theorem entryOf_put : (queue.put key entry).entryOf other = if other = key then entry
    else queue.entryOf other := by
  by_cases same : other = key
  · simp [entryOf, put, same]
  · simp [entryOf, put, same]

theorem entryOf_drop :
    entryOf ⟨queue.ready, Function.update queue.entries key none, queue.deadlines⟩ other =
      if other = key then .default else queue.entryOf other := by
  by_cases same : other = key
  · simp [entryOf, same]
  · simp [entryOf, same]

variable {after : WorkQueue Key} (sound : queue.Sound)
  (entries : ∀ other, after.entryOf other = if other = key then entry else queue.entryOf other)

include sound entries

section

variable (deadlines : after.deadlines = queue.deadlines)
  (deadline : entry.deadline = (queue.entryOf key).deadline)
  (dirty : entry.dirty = true → entry.processing = true)

include deadlines deadline dirty

/-- An operation on one key that leaves the deadlines alone. -/
theorem Sound.requeue (waits : key ∈ after.ready ↔ entry.queued = true)
    (others : ∀ other, other ≠ key → (other ∈ after.ready ↔ other ∈ queue.ready))
    (once : after.ready.Nodup)
    (apart : entry.queued = true → entry.processing = false) : after.Sound := by
  refine ⟨fun other => ?_, once, fun time other => ?_, deadlines ▸ sound.single,
    deadlines ▸ sound.ordered, fun other => ?_, fun other => ?_⟩ <;> rw [entries] <;>
      split_ifs with same
  · rw [same, waits]
  · rw [others other same, sound.ready]
  · rw [same, deadlines, deadline, sound.armed]
  · rw [deadlines, sound.armed]
  · exact dirty
  · exact sound.dirty other
  · exact apart
  · exact sound.apart other

theorem Sound.keep (ready : after.ready = queue.ready)
    (queued : entry.queued = (queue.entryOf key).queued)
    (apart : entry.queued = true → entry.processing = false) : after.Sound := by
  refine sound.requeue entries deadlines deadline dirty ?_ (fun _ _ => by rw [ready])
    (ready ▸ sound.once) apart
  rw [ready, sound.ready, queued]

theorem Sound.enqueue (ready : after.ready = queue.ready ++ [key])
    (absent : ¬ (queue.entryOf key).queued = true) (queued : entry.queued = true)
    (idle : entry.processing = false) : after.Sound := by
  have new : key ∉ queue.ready := fun waits => absent ((sound.ready key).mp waits)
  refine sound.requeue entries deadlines deadline dirty ?_ (fun other different => ?_) ?_ fun _ =>
    idle
  · simp [ready, queued]
  · simp [ready, different]
  · simpa [ready] using sound.once.concat new

end

/-- An operation on one key that leaves alone what waits. -/
theorem Sound.rearm (ready : after.ready = queue.ready) (deadline : Option Int)
    (isEntry : entry = { queue.entryOf key with deadline })
    (armed : ∀ time, (time, key) ∈ after.deadlines ↔ deadline = some time)
    (otherwise : ∀ time other, other ≠ key →
      ((time, other) ∈ after.deadlines ↔ (time, other) ∈ queue.deadlines))
    (single : after.deadlines.Nodup) (ordered : after.deadlines.Pairwise (·.1 ≤ ·.1)) :
    after.Sound := by
  subst isEntry
  refine ⟨fun other => ?_, ready ▸ sound.once, fun time other => ?_, single, ordered,
    fun other => ?_, fun other => ?_⟩ <;> rw [entries] <;> split_ifs with same
  · rw [ready, same, sound.ready]
  · rw [ready, sound.ready]
  · rw [same, armed]
  · rw [otherwise time other same, sound.armed]
  · exact sound.dirty key
  · exact sound.dirty other
  · exact sound.apart key
  · exact sound.apart other

end

variable {queue : WorkQueue Key} {key other : Key} {time now : Int}

theorem entryOf_add :
    (queue.add key).entryOf other =
      if other = key then (queue.entryOf key).added else queue.entryOf other := by
  unfold add Entry.added
  by_cases processing : (queue.entryOf key).processing = true
  · simp only [processing, if_true]
    exact entryOf_put
  · by_cases queued : (queue.entryOf key).queued = true
    · have unchanged :
        { queue.entryOf key with queued := true } = queue.entryOf key := by rw [← queued]
      rw [if_neg processing, if_neg processing, if_pos queued, unchanged]
      exact entryOf_put
    · rw [if_neg processing, if_neg processing, if_neg queued]
      exact entryOf_put

theorem Sound.add (sound : queue.Sound) (key : Key) : (queue.add key).Sound := by
  unfold WorkQueue.add
  dsimp only
  split_ifs with processing queued
  · exact sound.keep (fun _ => entryOf_put) rfl rfl (fun _ => processing) rfl rfl (sound.apart key)
  · exact sound.keep (fun _ => entryOf_put) rfl rfl (sound.dirty key) rfl rfl (sound.apart key)
  · exact sound.enqueue (fun _ => entryOf_put) rfl rfl (sound.dirty key) rfl queued rfl
      (eq_false_iff.mpr processing)

variable {deadlines : List (Int × Key)} {deadline : Int} {entry : Int × Key}

omit [DecidableEq Key] in
theorem mem_insertDeadline :
    entry ∈ insertDeadline key deadlines deadline ↔ entry = (deadline, key) ∨ entry ∈ deadlines :=
  mem_orderedInsert _

theorem mem_removeDeadline :
    entry ∈ removeDeadline key deadlines deadline ↔ entry ∈ deadlines ∧
      entry ≠ (deadline, key) := by
  simp [removeDeadline]

/-- The deadlines of the other keys. -/
def without (queue : WorkQueue Key) (key : Key) : List (Int × Key) :=
  match (queue.entryOf key).deadline with
  | some old => removeDeadline key queue.deadlines old
  | none => queue.deadlines

theorem without_sublist : (queue.without key).Sublist queue.deadlines := by
  unfold without
  split
  · exact filter_sublist
  · exact Sublist.refl _

theorem Sound.mem_without (sound : queue.Sound) :
    (time, other) ∈ queue.without key ↔ (time, other) ∈ queue.deadlines ∧ other ≠ key := by
  have armed := sound.armed time key
  unfold without
  split <;> next isOld =>
    rw [isOld] at armed
    by_cases same : other = key
    · simp [mem_removeDeadline, same, armed, eq_comm]
    · simp [mem_removeDeadline, same]

/-- The entry of a key with one more deadline. -/
def earliest (entry : Entry) (deadline : Int) : Option Int :=
  some (entry.deadline.elim deadline (min · deadline))

theorem addAt_cases (queue : WorkQueue Key) (key : Key) (deadline : Int) :
    (queue.addAt key deadline = queue ∧
      earliest (queue.entryOf key) deadline = (queue.entryOf key).deadline) ∨
    (queue.addAt key deadline =
      { queue.put key { queue.entryOf key with deadline := some deadline } with
        deadlines := insertDeadline key (queue.without key) deadline } ∧
      earliest (queue.entryOf key) deadline = some deadline) := by
  cases isOld : (queue.entryOf key).deadline with
  | none => simp [addAt, without, earliest, isOld]
  | some old =>
    by_cases early : old ≤ deadline
    · simp [addAt, earliest, isOld, early]
    · simp [addAt, without, earliest, isOld, early, le_of_not_ge early]

theorem entryOf_addAt :
    (queue.addAt key deadline).entryOf other =
      if other = key then
        { queue.entryOf key with deadline := earliest (queue.entryOf key) deadline }
      else queue.entryOf other := by
  rcases addAt_cases queue key deadline with ⟨isQueue, same⟩ | ⟨isQueue, same⟩ <;>
    rw [isQueue, same]
  · split_ifs with isKey
    · rw [isKey]
    · rfl
  · exact entryOf_put

theorem Sound.addAt (sound : queue.Sound) (key : Key) (deadline : Int) :
    (queue.addAt key deadline).Sound := by
  rcases addAt_cases queue key deadline with ⟨isQueue, -⟩ | ⟨isQueue, -⟩ <;> rw [isQueue]
  · exact sound
  · have absent : ∀ time, (time, key) ∉ queue.without key := fun time => by simp [sound.mem_without]
    refine sound.rearm (fun _ => entryOf_put) rfl _ rfl (fun time => ?_)
      (fun time other different => ?_) ((perm_orderedInsert _ _ _).nodup_iff.mpr
        (nodup_cons.mpr ⟨absent deadline, without_sublist.nodup sound.single⟩))
      (by exact (sound.ordered.sublist without_sublist).orderedInsert _ _)
    · rw [mem_insertDeadline]
      simp [absent, eq_comm]
    · rw [mem_insertDeadline, sound.mem_without]
      simp [different]

omit [DecidableEq Key] in
theorem Sound.idle (sound : queue.Sound)
    (idle : ¬ ((queue.entryOf key).queued || (queue.entryOf key).processing) = true) :
    Entry.mk (queue.entryOf key).queued (queue.entryOf key).processing
      (queue.entryOf key).dirty none = Entry.default := by
  have ⟨queued, processing⟩ := or_eq_false_iff.mp (eq_false_iff.mpr idle)
  have clean : (queue.entryOf key).dirty = false := by
    by_contra dirty
    have busy := sound.dirty key (by simpa using dirty)
    simp [processing] at busy
  rw [queued, processing, clean]
  rfl

theorem entryOf_cancelDeadline (sound : queue.Sound) :
    (queue.cancelDeadline key).entryOf other =
      if other = key then { queue.entryOf key with deadline := none } else queue.entryOf other := by
  unfold cancelDeadline
  by_cases absent : (queue.entries key).isNone = true
  · have isDefault : queue.entryOf key = Entry.default := by
      rw [entryOf, isNone_iff_eq_none.mp absent]
      rfl
    split_ifs with same
    · rw [same, isDefault]
      rfl
    · rfl
  · rw [if_neg absent]
    by_cases busy : ((queue.entryOf key).queued || (queue.entryOf key).processing) = true
    · rw [if_pos busy]
      exact entryOf_put
    · rw [if_neg busy, sound.idle busy]
      exact entryOf_drop

theorem Sound.cancelDeadline (sound : queue.Sound) (key : Key) :
    (queue.cancelDeadline key).Sound := by
  by_cases absent : (queue.entries key).isNone = true
  · rw [show queue.cancelDeadline key = queue from if_pos absent]
    exact sound
  · have kept : (queue.cancelDeadline key).ready = queue.ready ∧
        (queue.cancelDeadline key).deadlines = queue.without key := by
      simp only [WorkQueue.cancelDeadline, if_neg absent]
      split_ifs <;> exact ⟨rfl, rfl⟩
    refine sound.rearm (fun _ => entryOf_cancelDeadline sound) kept.1 _ rfl (fun time => ?_)
      (fun time other different => ?_) ?_ ?_ <;> rw [kept.2]
    · simp [sound.mem_without]
    · simp [sound.mem_without, different]
    · exact without_sublist.nodup sound.single
    · exact sound.ordered.sublist without_sublist

/-- What the queue is while it fires. -/
def withDeadlines (queue : WorkQueue Key) (deadlines : List (Int × Key)) : WorkQueue Key :=
  { queue with deadlines }

theorem add_withDeadlines (deadlines : List (Int × Key)) :
    (queue.withDeadlines deadlines).add key = (queue.add key).withDeadlines deadlines := by
  unfold add withDeadlines
  dsimp only [entryOf, put]
  split_ifs <;> rfl

theorem Sound.expire {later : List (Int × Key)}
    (sound : (queue.withDeadlines ((deadline, key) :: later)).Sound) :
    (((queue.put key { queue.entryOf key with deadline := none }).add key).withDeadlines
      later).Sound := by
  have first := nodup_cons.mp sound.single
  have only : ∀ time, (time, key) ∈ (deadline, key) :: later → time = deadline := by
    intro time member
    have isTime := (sound.armed time key).mp member
    have isDeadline := (sound.armed deadline key).mp mem_cons_self
    exact some.inj (isTime.symm.trans isDeadline)
  have cleared :
      ((queue.put key { queue.entryOf key with deadline := none }).withDeadlines later).Sound := by
    refine sound.rearm (fun _ => entryOf_put) rfl none rfl (fun time => ?_)
      (fun time other different => ?_) first.2 sound.ordered.of_cons
    · refine iff_of_false (fun member => ?_) nofun
      obtain rfl := only time (.tail _ member)
      exact first.1 member
    · simp [withDeadlines, different]
  rw [← add_withDeadlines]
  exact cleared.add key

theorem fire_sound (now : Int) (deadlines : List (Int × Key)) :
    ∀ queue : WorkQueue Key, (queue.withDeadlines deadlines).Sound →
      (fire now deadlines queue).Sound := by
  induction deadlines with
  | nil => exact fun queue sound => sound
  | cons first later ih =>
    intro queue sound
    unfold fire
    split_ifs
    · exact ih _ sound.expire
    · exact sound

theorem fire_covers (now : Int) (deadlines : List (Int × Key)) :
    ∀ queue : WorkQueue Key, (queue.entryOf key).Covers time →
      ((fire now deadlines queue).entryOf key).Covers time := by
  induction deadlines with
  | nil => exact fun queue covers => covers
  | cons first later ih =>
    intro queue covers
    unfold fire
    split_ifs
    · refine ih _ ?_
      rw [entryOf_add]
      split_ifs with same
      · exact Entry.added_covers _ _
      · rw [entryOf_put, if_neg same]
        exact covers
    · exact covers

theorem Sound.fired (sound : queue.Sound) (now : Int) : (fire now queue.deadlines queue).Sound :=
  fire_sound now queue.deadlines queue sound

theorem Sound.take (sound : queue.Sound) {i : Nat} (isKey : queue.ready[i]? = some key) :
    Sound { queue.put key { queue.entryOf key with queued := false, processing := true } with
      ready := queue.ready.eraseIdx i } := by
  have erased : queue.ready.eraseIdx i = queue.ready.erase key := by
    obtain ⟨inside, rfl⟩ := List.getElem?_eq_some_iff.mp isKey
    exact (sound.once.erase_getElem i inside).symm
  refine sound.requeue (fun _ => entryOf_put) rfl rfl (fun _ => rfl) ?_
    (fun other different => ?_) ?_ nofun <;> dsimp only <;> rw [erased]
  · simp [sound.once.mem_erase_iff]
  · simp [sound.once.mem_erase_iff, different]
  · exact sound.once.erase key

theorem Sound.next (sound : queue.Sound) (now : Int) : (queue.next now).1.Sound := by
  have fired := sound.fired now
  unfold WorkQueue.next
  dsimp only
  split
  · next key rest isReady =>
    have taken := fired.take (i := 0) (by rw [isReady]; rfl)
    rw [isReady] at taken
    exact taken
  · exact fired

theorem next_covers (covers : (queue.entryOf key).Covers time)
    (kept : (queue.next now).2 ≠ some key) : ((queue.next now).1.entryOf key).Covers time := by
  have fired := fire_covers now queue.deadlines queue covers
  unfold next at kept ⊢
  dsimp only at kept ⊢
  split
  · next first rest isReady =>
    have different : key ≠ first := fun same => kept (by simp only [isReady, same])
    refine (entryOf_put.trans (if_neg different)).symm ▸ fired
  · exact fired

theorem fire_processing (now : Int) (deadlines : List (Int × Key)) :
    ∀ queue : WorkQueue Key,
      ((fire now deadlines queue).entryOf key).processing = (queue.entryOf key).processing := by
  induction deadlines with
  | nil => exact fun queue => rfl
  | cons first later ih =>
    intro queue
    unfold fire
    split_ifs
    · rw [ih, entryOf_add]
      split_ifs with same
      · rw [Entry.added_processing, entryOf_put, if_pos rfl, same]
      · rw [entryOf_put, if_neg same]
    · rfl

theorem next_processing :
    ((queue.next now).1.entryOf key).processing =
      ((queue.next now).2 = some key || (queue.entryOf key).processing) := by
  rw [← fire_processing now queue.deadlines queue]
  cases isReady : (fire now queue.deadlines queue).ready with
  | nil => simp [next, isReady]
  | cons first rest =>
    simp only [next, isReady]
    refine (congrArg Entry.processing entryOf_put).trans ?_
    by_cases same : key = first
    · simp [same]
    · simp [same, Ne.symm same]

def finished (entry : Entry) : Entry :=
  if entry.dirty then { entry with processing := false, dirty := false, queued := true }
  else { entry with processing := false }

omit [DecidableEq Key] in
theorem Sound.not_queued (sound : queue.Sound)
    (processing : (queue.entryOf key).processing = true) : ¬ (queue.entryOf key).queued = true := by
  intro queued
  have idle := sound.apart key queued
  simp [processing] at idle

theorem entryOf_done (sound : queue.Sound) (processing : (queue.entryOf key).processing = true) :
    (queue.done key).entryOf other =
      if other = key then finished (queue.entryOf key) else queue.entryOf other := by
  have waiting := eq_false_iff.mpr (sound.not_queued processing)
  unfold done finished
  by_cases dirty : (queue.entryOf key).dirty = true
  · rw [if_pos dirty, if_pos dirty]
    exact entryOf_put
  · rw [if_neg dirty, if_neg dirty]
    by_cases unarmed : (queue.entryOf key).deadline.isNone = true
    · have isDefault : Entry.mk (queue.entryOf key).queued false (queue.entryOf key).dirty
          (queue.entryOf key).deadline = Entry.default := by
        rw [waiting, eq_false_iff.mpr dirty, isNone_iff_eq_none.mp unarmed]
        rfl
      rw [if_pos unarmed, isDefault]
      exact entryOf_drop
    · rw [if_neg unarmed]
      exact entryOf_put

theorem finished_covers {entry : Entry} (covers : entry.Covers time) :
    (finished entry).Covers time := by
  unfold finished
  split_ifs with dirty
  · exact .inl rfl
  · rcases covers with queued | ⟨-, isDirty⟩ | armed
    · exact .inl queued
    · exact absurd isDirty dirty
    · exact .inr (.inr armed)

theorem Sound.done (sound : queue.Sound) (processing : (queue.entryOf key).processing = true) :
    (queue.done key).Sound := by
  have absent := sound.not_queued processing
  unfold WorkQueue.done
  dsimp only
  split_ifs with dirty unarmed
  · exact sound.enqueue (fun _ => entryOf_put) rfl rfl nofun rfl absent rfl rfl
  · refine sound.keep (fun _ => entryOf_drop) rfl ?_ nofun rfl ?_ nofun
    · exact (isNone_iff_eq_none.mp unarmed).symm
    · exact (eq_false_iff.mpr absent).symm
  · exact sound.keep (fun _ => entryOf_put) rfl rfl (fun isDirty => absurd isDirty dirty) rfl rfl
      fun _ => rfl

end WorkQueue

end Rustkube
